import Kryptik.Wlproxy.Wire

namespace Kryptik.Wlproxy.Protocol

open Wire

inductive Interface
  | wlDisplay
  | wlRegistry
  | wlCallback
  | wlCompositor
  | wlShmPool
  | wlShm
  | wlBuffer
  | wlDataOffer
  | wlDataSource
  | wlDataDevice
  | wlDataDeviceManager
  | wlShell
  | wlShellSurface
  | wlSurface
  | wlSeat
  | wlPointer
  | wlKeyboard
  | wlTouch
  | wlOutput
  | wlRegion
  | wlSubcompositor
  | wlSubsurface
  | wlFixes
  | xdgWmBase
  | xdgPositioner
  | xdgSurface
  | xdgToplevel
  | xdgPopup
  | zxdgDecorationManagerV1
  | zxdgToplevelDecorationV1
  | wpViewporter
  | wpViewport
  | wpCursorShapeManagerV1
  | wpCursorShapeDeviceV1
  | wpFractionalScaleManagerV1
  | wpFractionalScaleV1
  | zwpIdleInhibitManagerV1
  | zwpIdleInhibitorV1
  deriving DecidableEq

def Interface.name : Interface → String
  | .wlDisplay => "wl_display"
  | .wlRegistry => "wl_registry"
  | .wlCallback => "wl_callback"
  | .wlCompositor => "wl_compositor"
  | .wlShmPool => "wl_shm_pool"
  | .wlShm => "wl_shm"
  | .wlBuffer => "wl_buffer"
  | .wlDataOffer => "wl_data_offer"
  | .wlDataSource => "wl_data_source"
  | .wlDataDevice => "wl_data_device"
  | .wlDataDeviceManager => "wl_data_device_manager"
  | .wlShell => "wl_shell"
  | .wlShellSurface => "wl_shell_surface"
  | .wlSurface => "wl_surface"
  | .wlSeat => "wl_seat"
  | .wlPointer => "wl_pointer"
  | .wlKeyboard => "wl_keyboard"
  | .wlTouch => "wl_touch"
  | .wlOutput => "wl_output"
  | .wlRegion => "wl_region"
  | .wlSubcompositor => "wl_subcompositor"
  | .wlSubsurface => "wl_subsurface"
  | .wlFixes => "wl_fixes"
  | .xdgWmBase => "xdg_wm_base"
  | .xdgPositioner => "xdg_positioner"
  | .xdgSurface => "xdg_surface"
  | .xdgToplevel => "xdg_toplevel"
  | .xdgPopup => "xdg_popup"
  | .zxdgDecorationManagerV1 => "zxdg_decoration_manager_v1"
  | .zxdgToplevelDecorationV1 => "zxdg_toplevel_decoration_v1"
  | .wpViewporter => "wp_viewporter"
  | .wpViewport => "wp_viewport"
  | .wpCursorShapeManagerV1 => "wp_cursor_shape_manager_v1"
  | .wpCursorShapeDeviceV1 => "wp_cursor_shape_device_v1"
  | .wpFractionalScaleManagerV1 => "wp_fractional_scale_manager_v1"
  | .wpFractionalScaleV1 => "wp_fractional_scale_v1"
  | .zwpIdleInhibitManagerV1 => "zwp_idle_inhibit_manager_v1"
  | .zwpIdleInhibitorV1 => "zwp_idle_inhibitor_v1"

/-- One argument of a message, as the wire carries it. A new id without an
interface is the one of `wl_registry.bind`, which the client names. -/
inductive Arg
  | int
  | uint
  | fixed
  | string (nullable : Bool)
  | object (nullable : Bool)
  | newId (iface : Option Interface)
  | array
  | fd
  deriving DecidableEq

structure Message where
  name : String
  args : List Arg
  fds : ℕ
  since : ℕ

/-- The object a message creates, its strings with their offsets, and the
version a bind asks for. -/
structure Decoded where
  newObject : Option (ℕ × String) := none
  strings : List (ℕ × String) := []
  bindVersion : Option ℕ := none

def Decoded.created (d : Decoded) (id : ℕ) (name : String) : Except WireError Decoded :=
  if d.newObject.isSome then .error .secondNewId else .ok { d with newObject := some (id, name) }

def decodeArg (len : ℕ) (d : Decoded) : Arg → ArgReader Decoded
  | .int | .uint | .fixed | .object _ => do
    let _ ← ArgReader.u32
    return d
  | .string nullable => do
    let rest ← get
    match ← ArgReader.string with
    | some s => return { d with strings := d.strings ++ [(len - rest.length, s)] }
    | none => if nullable then return d else throw .nullString
  | .array => do
    let _ ← ArgReader.array
    return d
  | .newId (some iface) => do
    let id ← ArgReader.u32
    d.created id iface.name
  | .newId none => do
    match ← ArgReader.string with
    | none => throw .nullString
    | some name =>
      let version ← ArgReader.u32
      let id ← ArgReader.u32
      { d with bindVersion := some version }.created id name
  | .fd => return d

def decodeArgs (len : ℕ) (d : Decoded) : List Arg → ArgReader Decoded
  | [] => return d
  | a :: args => do
    let d ← decodeArg len d a
    decodeArgs len d args

def decode (m : Message) (body : Bytes) : Except WireError Decoded :=
  match decodeArgs body.length {} m.args body with
  | .ok (d, []) => .ok d
  | .ok (_, _ :: _) => .error .argOverrun
  | .error e => .error e

end Kryptik.Wlproxy.Protocol
