import IpaOffload.Bridge.Uapi
import IpaOffload.Lib.ByteMem
import IpaOffload.Lib.StateFrame

/-!
# The process the bridge is loaded into

`World` is what one thread of `ipacm` sees: its memory, the static variables
of the preloaded library, the kernel behind the system calls and the list of
the `ioctl` system calls made so far. The kernel is a parameter; only `ioctl`
is given the memory, because the other calls the bridge makes are handed
buffers of its own whose contents the model passes as values.
-/

namespace IpaOffload.Bridge

open ByteMem StateFrame

abbrev Bytes := List UInt8

def cstr (s : String) : Bytes := s.toList.map fun c => UInt8.ofNat c.toNat

/-- The kernel, with a state of its own. `read` and `readlink` give `none` where
the system call returns an error. -/
structure Os (σ : Type) where
  ioctl : σ → (fd : Int) → (request arg : Nat) → Mem → Int × Mem × σ
  openFile : σ → (path : Bytes) → (flags mode : Nat) → Int × σ
  read : σ → (fd : Int) → (count : Nat) → Option Bytes × σ
  write : σ → (fd : Int) → Bytes → σ
  close : σ → (fd : Int) → σ
  readlink : σ → (path : Bytes) → Option Bytes

structure IoctlCall where
  fd : Int
  request : Nat
  arg : Nat
  before : Mem
  ret : Int
  after : Mem

structure BridgeCfg where
  loaded : Bool := false
  modeTranslate : Bool := false
  tx : Bool := false
  rx : Bool := false
  ext : Bool := false
  rtFltLog : Bool := false
  rtFltTranslate : Bool := false
  failClosed : Bool := false
  hexdumpOnce : Bool := false
  allow : Bytes := []
  translate : Bytes := []
  logPath : Bytes := []

structure World (σ : Type) where
  mem : Mem
  os : σ
  ioctls : List IoctlCall := []
  cfg : BridgeCfg := {}
  hexdumpMask : Nat := 0
  envLoaded : Bool := false
  /-- `env_buf[0 .. env_len)`. -/
  envBuf : Bytes := []
  cachedFd : Int := -1
  cachedIsIpa : Bool := false

def World.withMem (w : World σ) (m : Mem) : World σ := { w with mem := m }

/-- What stays the same for the life of the process: the header the bridge was
compiled with, the kernel, and where the translators' stack buffer lies. -/
structure Platform (σ : Type) where
  uapi : Uapi
  os : Os σ
  buf : Nat

abbrev Proc (σ : Type) := StateM (World σ)

section
variable {σ : Type} (P : Platform σ)

-- ---------------------------------------------------------------------------
-- System calls
-- ---------------------------------------------------------------------------

def sysIoctl (fd : Int) (request arg : Nat) : Proc σ Int := fun w =>
  let (ret, mem, os) := P.os.ioctl w.os fd request arg w.mem
  (ret, { w with mem := mem, os := os, ioctls := w.ioctls ++ [⟨fd, request, arg, w.mem, ret, mem⟩] })

def sysOpen (path : Bytes) (flags mode : Nat) : Proc σ Int := fun w =>
  let (fd, os) := P.os.openFile w.os path flags mode
  (fd, { w with os := os })

def sysRead (fd : Int) (count : Nat) : Proc σ (Option Bytes) := fun w =>
  let (data, os) := P.os.read w.os fd count
  (data.map (·.take count), { w with os := os })

def sysWrite (fd : Int) (data : Bytes) : Proc σ Unit := modify fun w =>
  { w with os := P.os.write w.os fd data }

def sysClose (fd : Int) : Proc σ Unit := modify fun w => { w with os := P.os.close w.os fd }

def sysReadlink (path : Bytes) (count : Nat) : Proc σ (Option Bytes) := fun w =>
  ((P.os.readlink w.os path).map (·.take count), w)

def modifyMem (f : Mem → Mem) : Proc σ Unit := modify fun w => { w with mem := f w.mem }

-- ---------------------------------------------------------------------------
-- What the other system calls leave alone
-- ---------------------------------------------------------------------------

/-- The parts of the world that no log line touches: everything but the
kernel's state and the record of which hex dumps were made. -/
structure Quiet where
  mem : Mem
  ioctls : List IoctlCall
  cfg : BridgeCfg
  cachedFd : Int
  cachedIsIpa : Bool

def World.quiet (w : World σ) : Quiet := ⟨w.mem, w.ioctls, w.cfg, w.cachedFd, w.cachedIsIpa⟩

variable {P}

theorem sysOpen_quiet (path : Bytes) (flags mode : Nat) :
    Preserves World.quiet (sysOpen P path flags mode) := fun _ => rfl

theorem sysRead_quiet (fd : Int) (count : Nat) : Preserves World.quiet (sysRead P fd count) :=
  fun _ => rfl

theorem sysWrite_quiet (fd : Int) (data : Bytes) : Preserves World.quiet (sysWrite P fd data) :=
  fun _ => rfl

theorem sysClose_quiet (fd : Int) : Preserves World.quiet (sysClose P fd) := fun _ => rfl

end

def fixedOs (ret : Int) (reply : Mem → Mem) (link : Option Bytes) : Os Unit where
  ioctl := fun _ _ _ _ m => (ret, reply m, ())
  openFile := fun _ _ _ _ => (-1, ())
  read := fun _ _ _ => (none, ())
  write := fun _ _ _ => ()
  close := fun _ _ => ()
  readlink := fun _ _ => link

-- ---------------------------------------------------------------------------
-- C strings
-- ---------------------------------------------------------------------------

def bytesAt (m : Mem) (p n : Nat) : Bytes := (List.range n).map fun i => m (p + i)

/-- The bytes before the terminator: `s` up to `cstr_len`, for an array `s` of
at most `max` bytes. -/
def cText (s : Bytes) : Bytes := s.takeWhile (· ≠ 0)

def nameAt (m : Mem) (p : Nat) : Bytes := cText (bytesAt m p ipaResourceNameMax)

end IpaOffload.Bridge
