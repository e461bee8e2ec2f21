-- The requests that clients send to windowd and the checks of their fields
-- (include/os64/window_types.h, user/programs/windowd/window_protocol.c). A payload is its
-- words; each request is read from them at the offsets of its structure.
import MiniKernel.Lib.Word
import MiniKernel.Window.State

open mini_kernel.lib mini_kernel.os64

namespace mini_kernel.windowd

/-! ## Messages -/

def OS64_WINDOW_ABI_VERSION : U32 := 1

def OS_WINDOW_CREATE : U32 := 0x574001
def OS_WINDOW_SET_SURFACE : U32 := 0x574002
def OS_WINDOW_DAMAGE : U32 := 0x574003
def OS_WINDOW_DESTROY : U32 := 0x574004
def OS_WINDOW_SHOW : U32 := 0x574006
def OS_WINDOW_HIDE : U32 := 0x574007
def OS_WINDOW_MOVE : U32 := 0x574008
def OS_WINDOW_RESIZE : U32 := 0x574009
def OS_WINDOW_DAMAGE_BEGIN : U32 := 0x57400A
def OS_WINDOW_DAMAGE_RECTS : U32 := 0x57400B
def OS_WINDOW_DAMAGE_COMMIT : U32 := 0x57400C
def OS_WINDOW_FOCUS : U32 := 0x57400D
def OS_WINDOW_INPUT_EVENT : U32 := 0x57400E
def OS_WINDOW_GET_INFO : U32 := 0x57400F

inductive MessageType
  | none | request | reply | event | other (number : U32)
deriving DecidableEq

def OS_IPC_FLAG_HAS_HANDLES : U32 := 2
def OS_IPC_V2_MAX_HANDLES : Nat := 2

/-- A message of the second kind, without its size and version. -/
structure Message where
  sender : OsProcessIdentity
  type : MessageType
  flags : U32
  length : U32
  request_id : U32
  reply_to : U32
  handle_count : U32
  handles : Fin OS_IPC_V2_MAX_HANDLES → Nat
  payload : Nat → U32

/-- The handles that a message brings. -/
def Message.arrived (message : Message) : List Nat :=
  ((List.finRange OS_IPC_V2_MAX_HANDLES).filter fun i => decide (i.val < message.handle_count.toNat)).map
    message.handles

/-- `message->handles[0]`. -/
def Message.first_handle (message : Message) : Nat := message.handles ⟨0, by decide⟩

/-! ## Requests -/

/-- The words that every request begins with. -/
structure Header where
  size : U32
  abi_version : U32
  command : U32
  flags : U32
  request_id : U32
deriving DecidableEq

def read_header (payload : Nat → U32) : Header :=
  ⟨payload 0, payload 1, payload 2, payload 3, payload 4⟩

structure SurfaceFields where
  width : U32
  height : U32
  stride_pixels : U32
  pixel_format : U32
deriving DecidableEq

def read_surface (payload : Nat → U32) (at_word : Nat) : SurfaceFields :=
  ⟨payload at_word, payload (at_word + 1), payload (at_word + 2), payload (at_word + 3)⟩

/-- Both layouts of CREATE; the one without a geometry is at 0, 0. -/
structure OsWindowCreateRequest where
  header : Header
  content_generation : U32
  x : U32
  y : U32
  surface : SurfaceFields

def read_create (payload : Nat → U32) : OsWindowCreateRequest :=
  ⟨read_header payload, payload 5, 0, 0, read_surface payload 6⟩

def read_create_geometry (payload : Nat → U32) : OsWindowCreateRequest :=
  ⟨read_header payload, payload 5, payload 6, payload 7, read_surface payload 8⟩

/-- SET_SURFACE and RESIZE. -/
structure OsWindowSetSurfaceRequest where
  header : Header
  window_id : U32
  window_generation : U32
  content_generation : U32
  surface : SurfaceFields

def read_set_surface (payload : Nat → U32) : OsWindowSetSurfaceRequest :=
  ⟨read_header payload, payload 5, payload 6, payload 7, read_surface payload 8⟩

structure OsWindowDamageRequest where
  header : Header
  window_id : U32
  window_generation : U32
  content_generation : U32

def read_damage (payload : Nat → U32) : OsWindowDamageRequest :=
  ⟨read_header payload, payload 5, payload 6, payload 7⟩

/-- DESTROY, SHOW, HIDE, FOCUS and GET_INFO. -/
structure OsWindowStateRequest where
  header : Header
  window_id : U32
  window_generation : U32
  reserved : U32

def read_state (payload : Nat → U32) : OsWindowStateRequest :=
  ⟨read_header payload, payload 5, payload 6, payload 7⟩

structure OsWindowMoveRequest where
  header : Header
  window_id : U32
  window_generation : U32
  x : U32
  y : U32
  reserved : U32

def read_move (payload : Nat → U32) : OsWindowMoveRequest :=
  ⟨read_header payload, payload 5, payload 6, payload 7, payload 8, payload 9⟩

structure OsWindowDamageBeginRequest where
  header : Header
  window_id : U32
  window_generation : U32
  content_generation : U32
  submission_id : U32
  rect_count : U32
  chunk_count : U32

def read_damage_begin (payload : Nat → U32) : OsWindowDamageBeginRequest :=
  ⟨read_header payload, payload 5, payload 6, payload 7, payload 8, payload 9, payload 10⟩

def OS_WINDOW_DAMAGE_MAX_RECTS : Nat := 16
def OS_WINDOW_DAMAGE_RECTS_PER_CHUNK : Nat := 4
def OS_WINDOW_DAMAGE_MAX_CHUNKS : Nat := OS_WINDOW_DAMAGE_MAX_RECTS / OS_WINDOW_DAMAGE_RECTS_PER_CHUNK

structure OsWindowDamageRectsRequest where
  header : Header
  submission_id : U32
  chunk_index : U32
  rect_count : U32
  rects : Fin OS_WINDOW_DAMAGE_RECTS_PER_CHUNK → OsRect

def read_rect (payload : Nat → U32) (at_word : Nat) : OsRect :=
  ⟨payload at_word, payload (at_word + 1), payload (at_word + 2), payload (at_word + 3)⟩

def read_damage_rects (payload : Nat → U32) : OsWindowDamageRectsRequest :=
  ⟨read_header payload, payload 5, payload 6, payload 7, fun i => read_rect payload (8 + 4 * i.val)⟩

structure OsWindowDamageCommitRequest where
  header : Header
  submission_id : U32
  reserved : U32

def read_damage_commit (payload : Nat → U32) : OsWindowDamageCommitRequest :=
  ⟨read_header payload, payload 5, payload 6⟩

/-! ## Sizes of the structures -/

def SIZE_CREATE : U32 := 40
def SIZE_CREATE_GEOMETRY : U32 := 48
def SIZE_SET_SURFACE : U32 := 48
def SIZE_RESIZE : U32 := 48
def SIZE_DAMAGE : U32 := 32
def SIZE_DESTROY : U32 := 32
def SIZE_STATE : U32 := 32
def SIZE_MOVE : U32 := 40
def SIZE_DAMAGE_BEGIN : U32 := 44
def SIZE_DAMAGE_RECTS : U32 := 96
def SIZE_DAMAGE_COMMIT : U32 := 28
def SIZE_INPUT_FORWARD : U32 := 72
def SIZE_SERVICE_QUERY : U32 := 16

/-! ## Checks -/

def OS64_PIXEL_FORMAT_RGB : U32 := 0
def OS64_PIXEL_FORMAT_BGR : U32 := 1

def format_valid (format : U32) : Bool :=
  decide (format = OS64_PIXEL_FORMAT_RGB) || decide (format = OS64_PIXEL_FORMAT_BGR)

def surface_fields_valid (surface : SurfaceFields) : Bool :=
  decide (surface.width ≠ 0) && decide (surface.height ≠ 0) &&
    decide (surface.width ≤ surface.stride_pixels) && format_valid surface.pixel_format

/-- Size, version, command and request id. -/
def header_valid (header : Header) (size command : U32) : Bool :=
  decide (header.size = size) && decide (header.abi_version = OS64_WINDOW_ABI_VERSION) &&
    decide (header.command = command) && decide (header.request_id ≠ 0)

/-- The outcome of a check that knows one error. -/
def outcome_of (valid : Bool) : Outcome :=
  if valid then .ok () else .error OS_ERR_INVALID_ARGUMENT

/-- Both CREATE layouts are checked alike, up to their size. `create_flags_valid` of the code
is `window_state_layer_flags_valid`. -/
def create_valid (request : OsWindowCreateRequest) (size : U32) : Outcome :=
  outcome_of (header_valid request.header size OS_WINDOW_CREATE &&
    window_state_layer_flags_valid request.header.flags &&
    decide (request.content_generation ≠ 0) && surface_fields_valid request.surface)

def window_protocol_validate_create (request : OsWindowCreateRequest) : Outcome :=
  create_valid request SIZE_CREATE

def window_protocol_validate_create_geometry (request : OsWindowCreateRequest) : Outcome :=
  create_valid request SIZE_CREATE_GEOMETRY

/-- A request without flags that names a window. -/
def names_window (header : Header) (size command window_id window_generation : U32) : Bool :=
  header_valid header size command && decide (header.flags = 0) && decide (window_id ≠ 0) &&
    decide (window_generation ≠ 0)

def window_protocol_validate_set_surface (request : OsWindowSetSurfaceRequest) : Outcome :=
  outcome_of (names_window request.header SIZE_SET_SURFACE OS_WINDOW_SET_SURFACE request.window_id
    request.window_generation && decide (request.content_generation ≠ 0) &&
    surface_fields_valid request.surface)

def window_protocol_validate_resize (request : OsWindowSetSurfaceRequest) : Outcome :=
  outcome_of (names_window request.header SIZE_RESIZE OS_WINDOW_RESIZE request.window_id
    request.window_generation && decide (request.content_generation ≠ 0) &&
    surface_fields_valid request.surface)

def window_protocol_validate_damage (request : OsWindowDamageRequest) : Outcome :=
  outcome_of (names_window request.header SIZE_DAMAGE OS_WINDOW_DAMAGE request.window_id
    request.window_generation && decide (request.content_generation ≠ 0))

def window_protocol_validate_destroy (request : OsWindowStateRequest) : Outcome :=
  outcome_of (names_window request.header SIZE_DESTROY OS_WINDOW_DESTROY request.window_id
    request.window_generation && decide (request.reserved = 0))

/-- For SHOW, HIDE and FOCUS. -/
def window_protocol_validate_state (request : OsWindowStateRequest) (command : U32) : Outcome :=
  outcome_of (names_window request.header SIZE_STATE command request.window_id
    request.window_generation && decide (request.reserved = 0))

def window_protocol_validate_move (request : OsWindowMoveRequest) : Outcome :=
  outcome_of (names_window request.header SIZE_MOVE OS_WINDOW_MOVE request.window_id
    request.window_generation && decide (request.reserved = 0))

def window_protocol_validate_damage_begin (request : OsWindowDamageBeginRequest) : Outcome :=
  let expected_chunks :=
    ((request.rect_count + BitVec.ofNat 32 OS_WINDOW_DAMAGE_RECTS_PER_CHUNK - 1).toNat) /
      OS_WINDOW_DAMAGE_RECTS_PER_CHUNK
  outcome_of (names_window request.header SIZE_DAMAGE_BEGIN OS_WINDOW_DAMAGE_BEGIN request.window_id
    request.window_generation && decide (request.content_generation ≠ 0) &&
    decide (request.submission_id ≠ 0) && decide (request.rect_count ≠ 0) &&
    decide (request.rect_count.toNat ≤ OS_WINDOW_DAMAGE_MAX_RECTS) &&
    decide (request.chunk_count ≠ 0) &&
    decide (request.chunk_count.toNat ≤ OS_WINDOW_DAMAGE_MAX_CHUNKS) &&
    decide (request.chunk_count.toNat = expected_chunks))

/-- The rectangles that count have an area, and the others are zero. -/
def chunk_rects_valid (request : OsWindowDamageRectsRequest) : Bool :=
  (List.finRange OS_WINDOW_DAMAGE_RECTS_PER_CHUNK).all fun i =>
    if i.val < request.rect_count.toNat then
      decide (0 < (request.rects i).width.toInt) && decide (0 < (request.rects i).height.toInt)
    else decide (request.rects i = ⟨0, 0, 0, 0⟩)

def window_protocol_validate_damage_rects (request : OsWindowDamageRectsRequest) : Outcome :=
  outcome_of (header_valid request.header SIZE_DAMAGE_RECTS OS_WINDOW_DAMAGE_RECTS &&
    decide (request.header.flags = 0) && decide (request.submission_id ≠ 0) &&
    decide (request.chunk_index.toNat < OS_WINDOW_DAMAGE_MAX_CHUNKS) &&
    decide (request.rect_count ≠ 0) &&
    decide (request.rect_count.toNat ≤ OS_WINDOW_DAMAGE_RECTS_PER_CHUNK) && chunk_rects_valid request)

def window_protocol_validate_damage_commit (request : OsWindowDamageCommitRequest) : Outcome :=
  outcome_of (header_valid request.header SIZE_DAMAGE_COMMIT OS_WINDOW_DAMAGE_COMMIT &&
    decide (request.header.flags = 0) && decide (request.submission_id ≠ 0) &&
    decide (request.reserved = 0))

/-- A GET_INFO request names a window, or it asks for the display. -/
def window_protocol_validate_info (request : OsWindowStateRequest) : Outcome :=
  outcome_of (header_valid request.header SIZE_STATE OS_WINDOW_GET_INFO &&
    decide (request.header.flags = 0) && decide (request.reserved = 0) &&
    decide ((request.window_id = 0) ↔ (request.window_generation = 0)))

end mini_kernel.windowd
