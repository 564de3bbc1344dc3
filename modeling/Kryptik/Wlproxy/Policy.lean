import Kryptik.Wlproxy.ProtocolTables

namespace Kryptik.Wlproxy.Policy

open Protocol

def allowed : List (String × ℕ) := [
  ("wl_compositor", 6),
  ("wl_subcompositor", 1),
  ("wl_shm", 2),
  ("wl_seat", 9),
  ("wl_output", 4),
  ("xdg_wm_base", 6),
  ("zxdg_decoration_manager_v1", 1),
  ("wp_viewporter", 1),
  ("wp_cursor_shape_manager_v1", 1),
  ("wp_fractional_scale_manager_v1", 1)]

/-- The idle inhibitor, for a zone that may hold the screen awake. -/
def holdAwake : String × ℕ := ("zwp_idle_inhibit_manager_v1", 1)

/-- What may be bound at the compositor, with each version cap. -/
def bindable (hold : Bool) : List (String × ℕ) := allowed ++ if hold then [holdAwake] else []

def allowedVersion (interface : String) (hold : Bool) : Option ℕ :=
  ((bindable hold).find? (fun e => e.1 == interface)).map Prod.snd

/-- What the proxy answers itself and never passes to the compositor. -/
def servedNames : List String :=
  ["wl_data_device_manager", "wl_data_source", "wl_data_device", "wl_data_offer"]

def served (interface : String) : Bool := servedNames.contains interface

/-- The globals the proxy advertises as its own, on every registry. -/
def ownGlobals : List (String × ℕ) := [("wl_data_device_manager", 3)]

def ownGlobalBase : ℕ := 0xFFFFFF00

def ownVersion (interface : String) : Option ℕ :=
  (ownGlobals.find? (fun e => e.1 == interface)).map Prod.snd

def maxTitleBytes : ℕ := 256

def isControl (c : Char) : Bool := c.toNat < 0x20 || (0x7f ≤ c.toNat && c.toNat < 0xa0)

/-- The direction marks and line separators that a title may not carry. -/
def isBidi (c : Char) : Bool :=
  c.toNat = 0x061c || c.toNat = 0x200e || c.toNat = 0x200f ||
    (0x2028 ≤ c.toNat && c.toNat ≤ 0x202e) || (0x2066 ≤ c.toNat && c.toNat ≤ 0x2069)

/-- `str::is_char_boundary` at byte `i` of the text `cs`. -/
def isCharBoundary : List Char → ℕ → Bool
  | [], i => i = 0
  | c :: cs, i => i = 0 || (c.utf8Size ≤ i && isCharBoundary cs (i - c.utf8Size))

/-- The loop of `bound_utf8`: step back from `cut` to a boundary. -/
def boundaryBelow (cs : List Char) : ℕ → ℕ
  | 0 => 0
  | cut + 1 => if isCharBoundary cs (cut + 1) then cut + 1 else boundaryBelow cs cut

/-- `String::truncate` at a boundary: the characters of the first `i` bytes. -/
def truncate : List Char → ℕ → List Char
  | [], _ => []
  | c :: cs, i => if c.utf8Size ≤ i then c :: truncate cs (i - c.utf8Size) else []

/-- Cut `s` to `max` bytes with a `...`, on a character boundary. -/
def boundUtf8 (s : String) (max : ℕ) : String :=
  if s.utf8ByteSize ≤ max then s
  else String.ofList (truncate s.toList (boundaryBelow s.toList (max - 3))) ++ "..."

def cleanTitleChar (c : Char) : Char := if isControl c || isBidi c then ' ' else c

def titleFor (zone title : String) : String :=
  boundUtf8 ("[" ++ zone ++ "] " ++ String.ofList (title.toList.map cleanTitleChar)) maxTitleBytes

def isIdentChar (c : Char) : Bool := c.isAlphanum || c = '-' || c = '_'

def cleanClaim (claimed : String) : List Char :=
  (claimed.toList.take 64).map (fun c => if isIdentChar c then c else '_')

def appIdFor (zone claimed : String) : String :=
  "kryptik." ++ zone ++ "." ++
    if (cleanClaim claimed).isEmpty then "app" else String.ofList (cleanClaim claimed)

def zoneOk (zone : String) : Bool :=
  !zone.toList.isEmpty && zone.utf8ByteSize ≤ 32 && zone.toList.all isIdentChar

def maxObjects : ℕ := 4096
def maxIdSlots : ℕ := 2 * maxObjects
def maxPendingBytes : ℕ := 2 ^ 20
def maxPendingFds : ℕ := 64
def maxToplevelsPerSession : ℕ := 32
def maxToplevelsPerZone : ℕ := 64
def maxPopupsPerSession : ℕ := 16
def maxShmPoolsPerSession : ℕ := 128
def maxShmPoolsPerZone : ℕ := 256
def maxShmPoolBytes : ℕ := 128 * 2 ^ 20
def maxShmBytesPerSession : ℕ := 2 ^ 30
def maxShmBytesPerZone : ℕ := 2 ^ 30
def maxSubsurfacesPerSession : ℕ := 256
def maxHeldPerSurface : ℕ := 64
def maxMoveBytes : ℕ := 2 ^ 20
def maxDataSourcesPerSession : ℕ := 64
def maxMimeTypes : ℕ := 32
def maxMimeBytes : ℕ := 256

/-- The types the move gesture carries; the first one offered is taken. -/
def moveTypes : List String := [
  "text/plain;charset=utf-8",
  "text/plain",
  "text/html",
  "text/uri-list",
  "image/png",
  "image/jpeg",
  "application/octet-stream"]

end Kryptik.Wlproxy.Policy
