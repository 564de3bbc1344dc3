import Kryptik.Wlproxy.Protocol

namespace Kryptik.Wlproxy.Protocol

def interfaces : List Interface := [
  .wlDisplay, .wlRegistry, .wlCallback, .wlCompositor, .wlShmPool, .wlShm, .wlBuffer,
  .wlDataOffer, .wlDataSource, .wlDataDevice, .wlDataDeviceManager, .wlShell, .wlShellSurface,
  .wlSurface, .wlSeat, .wlPointer, .wlKeyboard, .wlTouch, .wlOutput, .wlRegion, .wlSubcompositor,
  .wlSubsurface, .wlFixes, .xdgWmBase, .xdgPositioner, .xdgSurface, .xdgToplevel, .xdgPopup,
  .zxdgDecorationManagerV1, .zxdgToplevelDecorationV1, .wpViewporter, .wpViewport,
  .wpCursorShapeManagerV1, .wpCursorShapeDeviceV1, .wpFractionalScaleManagerV1,
  .wpFractionalScaleV1, .zwpIdleInhibitManagerV1, .zwpIdleInhibitorV1]

def Interface.requests : Interface → List Message
  | .wlDisplay => [
    ⟨"sync", [.newId (some .wlCallback)], 0, 1⟩,
    ⟨"get_registry", [.newId (some .wlRegistry)], 0, 1⟩]
  | .wlRegistry => [
    ⟨"bind", [.uint, .newId none], 0, 1⟩]
  | .wlCallback => []
  | .wlCompositor => [
    ⟨"create_surface", [.newId (some .wlSurface)], 0, 1⟩,
    ⟨"create_region", [.newId (some .wlRegion)], 0, 1⟩,
    ⟨"release", [], 0, 7⟩]
  | .wlShmPool => [
    ⟨"create_buffer", [.newId (some .wlBuffer), .int, .int, .int, .int, .uint], 0, 1⟩,
    ⟨"destroy", [], 0, 1⟩,
    ⟨"resize", [.int], 0, 1⟩]
  | .wlShm => [
    ⟨"create_pool", [.newId (some .wlShmPool), .fd, .int], 1, 1⟩,
    ⟨"release", [], 0, 2⟩]
  | .wlBuffer => [
    ⟨"destroy", [], 0, 1⟩]
  | .wlDataOffer => [
    ⟨"accept", [.uint, .string true], 0, 1⟩,
    ⟨"receive", [.string false, .fd], 1, 1⟩,
    ⟨"destroy", [], 0, 1⟩,
    ⟨"finish", [], 0, 3⟩,
    ⟨"set_actions", [.uint, .uint], 0, 3⟩]
  | .wlDataSource => [
    ⟨"offer", [.string false], 0, 1⟩,
    ⟨"destroy", [], 0, 1⟩,
    ⟨"set_actions", [.uint], 0, 3⟩]
  | .wlDataDevice => [
    ⟨"start_drag", [.object true, .object false, .object true, .uint], 0, 1⟩,
    ⟨"set_selection", [.object true, .uint], 0, 1⟩,
    ⟨"release", [], 0, 2⟩]
  | .wlDataDeviceManager => [
    ⟨"create_data_source", [.newId (some .wlDataSource)], 0, 1⟩,
    ⟨"get_data_device", [.newId (some .wlDataDevice), .object false], 0, 1⟩,
    ⟨"release", [], 0, 4⟩]
  | .wlShell => [
    ⟨"get_shell_surface", [.newId (some .wlShellSurface), .object false], 0, 1⟩]
  | .wlShellSurface => [
    ⟨"pong", [.uint], 0, 1⟩,
    ⟨"move", [.object false, .uint], 0, 1⟩,
    ⟨"resize", [.object false, .uint, .uint], 0, 1⟩,
    ⟨"set_toplevel", [], 0, 1⟩,
    ⟨"set_transient", [.object false, .int, .int, .uint], 0, 1⟩,
    ⟨"set_fullscreen", [.uint, .uint, .object true], 0, 1⟩,
    ⟨"set_popup", [.object false, .uint, .object false, .int, .int, .uint], 0, 1⟩,
    ⟨"set_maximized", [.object true], 0, 1⟩,
    ⟨"set_title", [.string false], 0, 1⟩,
    ⟨"set_class", [.string false], 0, 1⟩]
  | .wlSurface => [
    ⟨"destroy", [], 0, 1⟩,
    ⟨"attach", [.object true, .int, .int], 0, 1⟩,
    ⟨"damage", [.int, .int, .int, .int], 0, 1⟩,
    ⟨"frame", [.newId (some .wlCallback)], 0, 1⟩,
    ⟨"set_opaque_region", [.object true], 0, 1⟩,
    ⟨"set_input_region", [.object true], 0, 1⟩,
    ⟨"commit", [], 0, 1⟩,
    ⟨"set_buffer_transform", [.int], 0, 2⟩,
    ⟨"set_buffer_scale", [.int], 0, 3⟩,
    ⟨"damage_buffer", [.int, .int, .int, .int], 0, 4⟩,
    ⟨"offset", [.int, .int], 0, 5⟩,
    ⟨"get_release", [.newId (some .wlCallback)], 0, 7⟩]
  | .wlSeat => [
    ⟨"get_pointer", [.newId (some .wlPointer)], 0, 1⟩,
    ⟨"get_keyboard", [.newId (some .wlKeyboard)], 0, 1⟩,
    ⟨"get_touch", [.newId (some .wlTouch)], 0, 1⟩,
    ⟨"release", [], 0, 5⟩]
  | .wlPointer => [
    ⟨"set_cursor", [.uint, .object true, .int, .int], 0, 1⟩,
    ⟨"release", [], 0, 3⟩]
  | .wlKeyboard => [
    ⟨"release", [], 0, 3⟩]
  | .wlTouch => [
    ⟨"release", [], 0, 3⟩]
  | .wlOutput => [
    ⟨"release", [], 0, 3⟩]
  | .wlRegion => [
    ⟨"destroy", [], 0, 1⟩,
    ⟨"add", [.int, .int, .int, .int], 0, 1⟩,
    ⟨"subtract", [.int, .int, .int, .int], 0, 1⟩]
  | .wlSubcompositor => [
    ⟨"destroy", [], 0, 1⟩,
    ⟨"get_subsurface", [.newId (some .wlSubsurface), .object false, .object false], 0, 1⟩]
  | .wlSubsurface => [
    ⟨"destroy", [], 0, 1⟩,
    ⟨"set_position", [.int, .int], 0, 1⟩,
    ⟨"place_above", [.object false], 0, 1⟩,
    ⟨"place_below", [.object false], 0, 1⟩,
    ⟨"set_sync", [], 0, 1⟩,
    ⟨"set_desync", [], 0, 1⟩]
  | .wlFixes => [
    ⟨"destroy", [], 0, 1⟩,
    ⟨"destroy_registry", [.object false], 0, 1⟩,
    ⟨"ack_global_remove", [.object false, .uint], 0, 2⟩]
  | .xdgWmBase => [
    ⟨"destroy", [], 0, 1⟩,
    ⟨"create_positioner", [.newId (some .xdgPositioner)], 0, 1⟩,
    ⟨"get_xdg_surface", [.newId (some .xdgSurface), .object false], 0, 1⟩,
    ⟨"pong", [.uint], 0, 1⟩]
  | .xdgPositioner => [
    ⟨"destroy", [], 0, 1⟩,
    ⟨"set_size", [.int, .int], 0, 1⟩,
    ⟨"set_anchor_rect", [.int, .int, .int, .int], 0, 1⟩,
    ⟨"set_anchor", [.uint], 0, 1⟩,
    ⟨"set_gravity", [.uint], 0, 1⟩,
    ⟨"set_constraint_adjustment", [.uint], 0, 1⟩,
    ⟨"set_offset", [.int, .int], 0, 1⟩,
    ⟨"set_reactive", [], 0, 3⟩,
    ⟨"set_parent_size", [.int, .int], 0, 3⟩,
    ⟨"set_parent_configure", [.uint], 0, 3⟩]
  | .xdgSurface => [
    ⟨"destroy", [], 0, 1⟩,
    ⟨"get_toplevel", [.newId (some .xdgToplevel)], 0, 1⟩,
    ⟨"get_popup", [.newId (some .xdgPopup), .object true, .object false], 0, 1⟩,
    ⟨"set_window_geometry", [.int, .int, .int, .int], 0, 1⟩,
    ⟨"ack_configure", [.uint], 0, 1⟩]
  | .xdgToplevel => [
    ⟨"destroy", [], 0, 1⟩,
    ⟨"set_parent", [.object true], 0, 1⟩,
    ⟨"set_title", [.string false], 0, 1⟩,
    ⟨"set_app_id", [.string false], 0, 1⟩,
    ⟨"show_window_menu", [.object false, .uint, .int, .int], 0, 1⟩,
    ⟨"move", [.object false, .uint], 0, 1⟩,
    ⟨"resize", [.object false, .uint, .uint], 0, 1⟩,
    ⟨"set_max_size", [.int, .int], 0, 1⟩,
    ⟨"set_min_size", [.int, .int], 0, 1⟩,
    ⟨"set_maximized", [], 0, 1⟩,
    ⟨"unset_maximized", [], 0, 1⟩,
    ⟨"set_fullscreen", [.object true], 0, 1⟩,
    ⟨"unset_fullscreen", [], 0, 1⟩,
    ⟨"set_minimized", [], 0, 1⟩]
  | .xdgPopup => [
    ⟨"destroy", [], 0, 1⟩,
    ⟨"grab", [.object false, .uint], 0, 1⟩,
    ⟨"reposition", [.object false, .uint], 0, 3⟩]
  | .zxdgDecorationManagerV1 => [
    ⟨"destroy", [], 0, 1⟩,
    ⟨"get_toplevel_decoration", [.newId (some .zxdgToplevelDecorationV1), .object false], 0, 1⟩]
  | .zxdgToplevelDecorationV1 => [
    ⟨"destroy", [], 0, 1⟩,
    ⟨"set_mode", [.uint], 0, 1⟩,
    ⟨"unset_mode", [], 0, 1⟩]
  | .wpViewporter => [
    ⟨"destroy", [], 0, 1⟩,
    ⟨"get_viewport", [.newId (some .wpViewport), .object false], 0, 1⟩]
  | .wpViewport => [
    ⟨"destroy", [], 0, 1⟩,
    ⟨"set_source", [.fixed, .fixed, .fixed, .fixed], 0, 1⟩,
    ⟨"set_destination", [.int, .int], 0, 1⟩]
  | .wpCursorShapeManagerV1 => [
    ⟨"destroy", [], 0, 1⟩,
    ⟨"get_pointer", [.newId (some .wpCursorShapeDeviceV1), .object false], 0, 1⟩,
    ⟨"get_tablet_tool_v2", [.newId (some .wpCursorShapeDeviceV1), .object false], 0, 1⟩]
  | .wpCursorShapeDeviceV1 => [
    ⟨"destroy", [], 0, 1⟩,
    ⟨"set_shape", [.uint, .uint], 0, 1⟩]
  | .wpFractionalScaleManagerV1 => [
    ⟨"destroy", [], 0, 1⟩,
    ⟨"get_fractional_scale", [.newId (some .wpFractionalScaleV1), .object false], 0, 1⟩]
  | .wpFractionalScaleV1 => [
    ⟨"destroy", [], 0, 1⟩]
  | .zwpIdleInhibitManagerV1 => [
    ⟨"destroy", [], 0, 1⟩,
    ⟨"create_inhibitor", [.newId (some .zwpIdleInhibitorV1), .object false], 0, 1⟩]
  | .zwpIdleInhibitorV1 => [
    ⟨"destroy", [], 0, 1⟩]

def Interface.events : Interface → List Message
  | .wlDisplay => [
    ⟨"error", [.object false, .uint, .string false], 0, 1⟩,
    ⟨"delete_id", [.uint], 0, 1⟩]
  | .wlRegistry => [
    ⟨"global", [.uint, .string false, .uint], 0, 1⟩,
    ⟨"global_remove", [.uint], 0, 1⟩]
  | .wlCallback => [
    ⟨"done", [.uint], 0, 1⟩]
  | .wlCompositor => []
  | .wlShmPool => []
  | .wlShm => [
    ⟨"format", [.uint], 0, 1⟩]
  | .wlBuffer => [
    ⟨"release", [], 0, 1⟩]
  | .wlDataOffer => [
    ⟨"offer", [.string false], 0, 1⟩,
    ⟨"source_actions", [.uint], 0, 3⟩,
    ⟨"action", [.uint], 0, 3⟩]
  | .wlDataSource => [
    ⟨"target", [.string true], 0, 1⟩,
    ⟨"send", [.string false, .fd], 1, 1⟩,
    ⟨"cancelled", [], 0, 1⟩,
    ⟨"dnd_drop_performed", [], 0, 3⟩,
    ⟨"dnd_finished", [], 0, 3⟩,
    ⟨"action", [.uint], 0, 3⟩]
  | .wlDataDevice => [
    ⟨"data_offer", [.newId (some .wlDataOffer)], 0, 1⟩,
    ⟨"enter", [.uint, .object false, .fixed, .fixed, .object true], 0, 1⟩,
    ⟨"leave", [], 0, 1⟩,
    ⟨"motion", [.uint, .fixed, .fixed], 0, 1⟩,
    ⟨"drop", [], 0, 1⟩,
    ⟨"selection", [.object true], 0, 1⟩]
  | .wlDataDeviceManager => []
  | .wlShell => []
  | .wlShellSurface => [
    ⟨"ping", [.uint], 0, 1⟩,
    ⟨"configure", [.uint, .int, .int], 0, 1⟩,
    ⟨"popup_done", [], 0, 1⟩]
  | .wlSurface => [
    ⟨"enter", [.object false], 0, 1⟩,
    ⟨"leave", [.object false], 0, 1⟩,
    ⟨"preferred_buffer_scale", [.int], 0, 6⟩,
    ⟨"preferred_buffer_transform", [.uint], 0, 6⟩]
  | .wlSeat => [
    ⟨"capabilities", [.uint], 0, 1⟩,
    ⟨"name", [.string false], 0, 2⟩]
  | .wlPointer => [
    ⟨"enter", [.uint, .object false, .fixed, .fixed], 0, 1⟩,
    ⟨"leave", [.uint, .object false], 0, 1⟩,
    ⟨"motion", [.uint, .fixed, .fixed], 0, 1⟩,
    ⟨"button", [.uint, .uint, .uint, .uint], 0, 1⟩,
    ⟨"axis", [.uint, .uint, .fixed], 0, 1⟩,
    ⟨"frame", [], 0, 5⟩,
    ⟨"axis_source", [.uint], 0, 5⟩,
    ⟨"axis_stop", [.uint, .uint], 0, 5⟩,
    ⟨"axis_discrete", [.uint, .int], 0, 5⟩,
    ⟨"axis_value120", [.uint, .int], 0, 8⟩,
    ⟨"axis_relative_direction", [.uint, .uint], 0, 9⟩,
    ⟨"warp", [.fixed, .fixed], 0, 11⟩]
  | .wlKeyboard => [
    ⟨"keymap", [.uint, .fd, .uint], 1, 1⟩,
    ⟨"enter", [.uint, .object false, .array], 0, 1⟩,
    ⟨"leave", [.uint, .object false], 0, 1⟩,
    ⟨"key", [.uint, .uint, .uint, .uint], 0, 1⟩,
    ⟨"modifiers", [.uint, .uint, .uint, .uint, .uint], 0, 1⟩,
    ⟨"repeat_info", [.int, .int], 0, 4⟩]
  | .wlTouch => [
    ⟨"down", [.uint, .uint, .object false, .int, .fixed, .fixed], 0, 1⟩,
    ⟨"up", [.uint, .uint, .int], 0, 1⟩,
    ⟨"motion", [.uint, .int, .fixed, .fixed], 0, 1⟩,
    ⟨"frame", [], 0, 1⟩,
    ⟨"cancel", [], 0, 1⟩,
    ⟨"shape", [.int, .fixed, .fixed], 0, 6⟩,
    ⟨"orientation", [.int, .fixed], 0, 6⟩]
  | .wlOutput => [
    ⟨"geometry", [.int, .int, .int, .int, .int, .string false, .string false, .int], 0, 1⟩,
    ⟨"mode", [.uint, .int, .int, .int], 0, 1⟩,
    ⟨"done", [], 0, 2⟩,
    ⟨"scale", [.int], 0, 2⟩,
    ⟨"name", [.string false], 0, 4⟩,
    ⟨"description", [.string false], 0, 4⟩]
  | .wlRegion => []
  | .wlSubcompositor => []
  | .wlSubsurface => []
  | .wlFixes => []
  | .xdgWmBase => [
    ⟨"ping", [.uint], 0, 1⟩]
  | .xdgPositioner => []
  | .xdgSurface => [
    ⟨"configure", [.uint], 0, 1⟩]
  | .xdgToplevel => [
    ⟨"configure", [.int, .int, .array], 0, 1⟩,
    ⟨"close", [], 0, 1⟩,
    ⟨"configure_bounds", [.int, .int], 0, 4⟩,
    ⟨"wm_capabilities", [.array], 0, 5⟩]
  | .xdgPopup => [
    ⟨"configure", [.int, .int, .int, .int], 0, 1⟩,
    ⟨"popup_done", [], 0, 1⟩,
    ⟨"repositioned", [.uint], 0, 3⟩]
  | .zxdgDecorationManagerV1 => []
  | .zxdgToplevelDecorationV1 => [
    ⟨"configure", [.uint], 0, 1⟩]
  | .wpViewporter => []
  | .wpViewport => []
  | .wpCursorShapeManagerV1 => []
  | .wpCursorShapeDeviceV1 => []
  | .wpFractionalScaleManagerV1 => []
  | .wpFractionalScaleV1 => [
    ⟨"preferred_scale", [.uint], 0, 1⟩]
  | .zwpIdleInhibitManagerV1 => []
  | .zwpIdleInhibitorV1 => []

def find (name : String) : Option Interface := interfaces.find? (fun i => i.name == name)

end Kryptik.Wlproxy.Protocol
