-- What the kernel and its programs share (include/os64/result.h and process_types.h): the
-- results of calls, and the names of processes.
import MiniKernel.Lib.Word

open mini_kernel.lib

namespace mini_kernel.os64

/-- A result below zero. The other results of the calls here are OS_SUCCESS. -/
abbrev Failure := { code : Int // code < 0 }

def OS_ERR_NOT_READY : Failure := ⟨-1, by decide⟩
def OS_ERR_INVALID_ARGUMENT : Failure := ⟨-2, by decide⟩
def OS_ERR_NOT_FOUND : Failure := ⟨-3, by decide⟩
def OS_ERR_ALREADY_EXISTS : Failure := ⟨-6, by decide⟩
def OS_ERR_NO_RESOURCES : Failure := ⟨-7, by decide⟩
def OS_ERR_UNSUPPORTED : Failure := ⟨-8, by decide⟩
def OS_ERR_PERMISSION_DENIED : Failure := ⟨-15, by decide⟩
def OS_ERR_BAD_BUFFER : Failure := ⟨-16, by decide⟩
def OS_ERR_TIMEOUT : Failure := ⟨-17, by decide⟩

abbrev Outcome := Except Failure Unit

/-- The number that a reply carries for an outcome. -/
def Outcome.code : Outcome → Int
  | .ok () => 0
  | .error failure => failure.val

structure OsProcessIdentity where
  pid : U32
  generation : U32
deriving DecidableEq

end mini_kernel.os64
