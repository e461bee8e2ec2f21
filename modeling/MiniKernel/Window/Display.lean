-- The part of windowd that talks to the display (user/programs/windowd_c.c): the GUI session
-- with the picture of the console, the frame that is composed, and its presentation. What
-- the kernel and the display service answer is given with each call. The kernel knows the
-- handles of windowd and which surface is mapped where (kernel/process/process_surface.cpp).
import MiniKernel.Lib.Word
import MiniKernel.Window.Compositor
import MiniKernel.Window.Protocol

open mini_kernel.lib mini_kernel.os64

namespace mini_kernel.windowd

/-! ## Handles and mappings -/

/-- An open handle of windowd, the surface that it stands for, and whether it came with a
message. -/
structure OpenHandle where
  value : Nat
  object : Nat
  received : Bool
deriving DecidableEq

/-- A surface is mapped once in a process, whatever handle was used. `opened` and `closes`
record every handle that was opened and every call that closes one; the kernel keeps no
such lists. -/
structure Kernel where
  handles : List OpenHandle
  mappings : List (Nat × Nat)
  memory : Memory
  opened : List Nat
  closes : List Nat

def Kernel.object (kernel : Kernel) (handle : Nat) : Option Nat :=
  (kernel.handles.find? fun opened => decide (opened.value = handle)).map OpenHandle.object

/-- Where the kernel maps a surface, or zero, and what the surface shows. -/
structure MapAnswer where
  address : Nat
  content : Pixels

/-- `process_surface_map` through the SDK: the address, or zero. A surface that is mapped
keeps its address; no two surfaces have one address. -/
def os_surface_map (kernel : Kernel) (handle : Nat) (answer : MapAnswer) : Nat × Kernel :=
  match kernel.object handle with
  | none => (0, kernel)
  | some object =>
    match kernel.mappings.lookup object with
    | some address => (address, kernel)
    | none =>
      if answer.address = 0 ∨ kernel.mappings.any fun mapping => decide (mapping.2 = answer.address) then
        (0, kernel)
      else
        (answer.address, { kernel with
          mappings := (object, answer.address) :: kernel.mappings
          memory := Function.update kernel.memory answer.address answer.content })

/-- The surface is no longer mapped. -/
def Kernel.unmap_object (kernel : Kernel) (object : Nat) : Kernel :=
  { kernel with mappings := kernel.mappings.filter fun mapping => decide (mapping.1 ≠ object) }

def os_surface_unmap (kernel : Kernel) (handle address : Nat) : Kernel :=
  match kernel.object handle with
  | none => kernel
  | some object =>
    if kernel.mappings.lookup object = some address then kernel.unmap_object object else kernel

/-- `dispatch_handle_close`: the surface of the handle is unmapped first. -/
def os_handle_close (kernel : Kernel) (handle : Nat) : Kernel :=
  match kernel.object handle with
  | none => { kernel with closes := handle :: kernel.closes }
  | some object =>
    { kernel.unmap_object object with
      handles := kernel.handles.filter fun opened => decide (opened.value ≠ handle)
      closes := handle :: kernel.closes }

/-- The kernel opens a handle. -/
def Kernel.open_handle (kernel : Kernel) (opened : OpenHandle) : Kernel :=
  { kernel with handles := opened :: kernel.handles, opened := opened.value :: kernel.opened }

/-- The kernel opens a handle: a value that is not in use for a surface that windowd does not
have, or zero. -/
def os_surface_create (kernel : Kernel) (handle object : Nat) : Nat × Kernel :=
  if handle = 0 ∨ kernel.handles.any fun opened =>
      decide (opened.value = handle) || decide (opened.object = object) then (0, kernel)
  else (handle, kernel.open_handle ⟨handle, object, false⟩)

def close_handle (kernel : Kernel) (handle : Nat) : Kernel :=
  if handle ≠ 0 then os_handle_close kernel handle else kernel

def close_message_handles (kernel : Kernel) (message : Message) : Kernel :=
  message.arrived.foldl close_handle kernel

def release_surface_values (kernel : Kernel) (handle pixels : Nat) : Kernel :=
  close_handle (if handle ≠ 0 ∧ pixels ≠ 0 then os_surface_unmap kernel handle pixels else kernel) handle

/-! ## The state of the display -/

/-- What a frame shows: the windows and the pointer. -/
structure Scene where
  table : WindowTable
  sources : Slot → WindowCompositorSource
  pointer_x : U32
  pointer_y : U32

/-- A frame that the display service has acknowledged: the picture, and what was there to
be shown at that moment. -/
structure Frame where
  scene : Scene
  memory : Memory
  underlay : WindowCompositorSource
  composite : Pixels

/-- `frames` records the frames that were acknowledged. The code has no such list. -/
structure Display where
  kernel : Kernel
  display_owner : OsProcessIdentity
  composite : Pixels
  console_snapshot_surface : Nat
  console_underlay : WindowCompositorSource
  gui_session_generation : U32
  next_frame_generation : U32
  pending_full_frame : Bool
  screen_damage : WindowDamageAccumulator
  frames : List Frame

structure SessionInfo where
  gui_active : Bool
  generation : U32
  display : OsProcessIdentity

/-- The answers that `ensure_gui_session` gets: the owner of the display service, the session
that there is, a new surface, the session that is acquired, the mapping and the layout of
the surface. -/
structure SessionAnswers where
  display : Except Failure OsProcessIdentity
  current : Option SessionInfo
  snapshot : Nat
  snapshot_object : Nat
  acquired : Except Failure U32
  map : MapAnswer
  info : Option SurfaceFields

/-- The answers that `present_composite` gets: the owner of the display service, and the
generation that the display has accepted. -/
structure PresentAnswers where
  display : Except Failure OsProcessIdentity
  reply : Except Failure U32

structure FrameAnswers where
  session : SessionAnswers
  present : PresentAnswers

section
variable (screen : Screen)

def Display.damage (display : Display) (rect : OsRect) : Display :=
  { display with screen_damage := window_damage_add_screen screen display.screen_damage rect }

def refresh_display_owner (found : Except Failure OsProcessIdentity) (display : Display) :
    Outcome × Display :=
  match found with
  | .error failure =>
    (.error failure, { display with display_owner := ⟨0, 0⟩, pending_full_frame := true })
  | .ok current =>
    if identity_equal current display.display_owner then (.ok (), display)
    else (.ok (), { display with display_owner := current, pending_full_frame := true })

def acquire_gui_session (answers : SessionAnswers) (display : Display) : Outcome × Display :=
  if display.gui_session_generation ≠ 0 then (.ok (), display)
  else
    let (snapshot, kernel) := os_surface_create display.kernel answers.snapshot answers.snapshot_object
    if snapshot = 0 then (.error OS_ERR_NO_RESOURCES, display)
    else
      match answers.acquired with
      | .error failure => (.error failure, { display with kernel := close_handle kernel snapshot })
      | .ok generation =>
        let (pixels, kernel) := os_surface_map kernel snapshot answers.map
        match answers.info with
        | none =>
          (.error OS_ERR_NOT_READY, { display with kernel := release_surface_values kernel snapshot pixels })
        | some info =>
          if pixels = 0 then
            (.error OS_ERR_NOT_READY, { display with kernel := close_handle kernel snapshot })
          else
            (.ok (), { display with
              kernel := kernel
              console_snapshot_surface := snapshot
              console_underlay := ⟨pixels, info.stride_pixels, info.width, info.height⟩
              gui_session_generation := generation
              composite := window_compositor_copy_full kernel.memory screen pixels info.stride_pixels
                display.composite
              screen_damage := window_damage_full screen
              pending_full_frame := true })

def drop_local_gui_session (display : Display) : Display :=
  { display with
    kernel := release_surface_values display.kernel display.console_snapshot_surface
      display.console_underlay.pixels
    console_snapshot_surface := 0
    console_underlay := .none
    gui_session_generation := 0 }

/-- The session is the one that windowd holds, with the display service that it knows. -/
def session_current (display : Display) (current : Option SessionInfo) : Bool :=
  match current with
  | none => false
  | some info =>
    info.gui_active && decide (info.generation = display.gui_session_generation) &&
      identity_equal display.display_owner info.display

def ensure_gui_session (answers : SessionAnswers) (display : Display) : Outcome × Display :=
  match refresh_display_owner answers.display display with
  | (.error _, display) => (.error OS_ERR_NOT_READY, display)
  | (.ok (), display) =>
    if display.gui_session_generation ≠ 0 then
      if session_current display answers.current then (.ok (), display)
      else acquire_gui_session screen answers (drop_local_gui_session display)
    else acquire_gui_session screen answers display

def release_gui_session (released : Outcome) (display : Display) : Outcome × Display :=
  let result := if display.gui_session_generation ≠ 0 then released else .ok ()
  (result, { drop_local_gui_session display with
    screen_damage := window_damage_reset, pending_full_frame := false })

def compose_pending (scene : Scene) (display : Display) : Outcome × Display :=
  if display.screen_damage.rects = [] then (.ok (), display)
  else if display.console_underlay.pixels = 0 then (.error OS_ERR_NOT_READY, display)
  else
    match window_compositor_compose_underlay display.kernel.memory screen display.console_underlay
        scene.table scene.sources display.screen_damage display.composite with
    | .error failure => (.error failure, display)
    | .ok composite =>
      (.ok (), { display with
        composite := draw_cursor screen scene.pointer_x scene.pointer_y composite })

/-- The next number of a frame. Zero is left out. -/
def frame_generation (next : U32) : U32 × U32 :=
  if next = 0 then (next + 1, next + 1 + 1) else (next, next + 1)

def present_composite (scene : Scene) (answers : PresentAnswers) (display : Display) :
    Outcome × Display :=
  match refresh_display_owner answers.display display with
  | (.error failure, display) => (.error failure, display)
  | (.ok (), display) =>
    let (generation, next) := frame_generation display.next_frame_generation
    let display := { display with next_frame_generation := next }
    match answers.reply with
    | .error failure => (.error failure, { display with pending_full_frame := true })
    | .ok accepted =>
      if accepted ≠ generation then
        (.error OS_ERR_BAD_BUFFER, { display with pending_full_frame := true })
      else
        (.ok (), { display with
          pending_full_frame := false
          screen_damage := window_damage_reset
          frames := ⟨scene, display.kernel.memory, display.console_underlay, display.composite⟩ ::
            display.frames })

def compose_and_present (scene : Scene) (answers : FrameAnswers) (display : Display) :
    Outcome × Display :=
  match ensure_gui_session screen answers.session display with
  | (.error failure, display) => (.error failure, display)
  | (.ok (), display) =>
    match compose_pending screen scene display with
    | (.error failure, display) => (.error failure, display)
    | (.ok (), display) => present_composite scene answers.present display

def rebuild_composite (scene : Scene) (display : Display) : Display :=
  match compose_pending screen scene { display with screen_damage := window_damage_full screen } with
  | (.error _, display) => display
  | (.ok (), display) => { display with pending_full_frame := true }

end

end mini_kernel.windowd
