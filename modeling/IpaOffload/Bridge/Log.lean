import IpaOffload.Bridge.Config
import Mathlib.Algebra.Group.Int.Defs

/-!
# The log

Every logging function opens the log file, writes the pieces of its lines one
by one and closes the file again; none of them writes to memory. A line is
the list of its pieces, so that one frame lemma (`logLines_quiet`) serves all.
-/

namespace IpaOffload.Bridge

open ByteMem StateFrame

/-- One `log_s`, `log_name` or `log_hex32_fd`. -/
inductive Piece
  | s (text : String)
  | name (field : Bytes)
  | hex (v : Nat)
  | raw (data : Bytes)

def hexDigit (d : Nat) : UInt8 := UInt8.ofNat (if d < 10 then 48 + d else 87 + d)

def hex32 (v : Nat) : Bytes :=
  cstr "0x" ++ (List.range 8).map fun i => hexDigit (v / 2 ^ (28 - i * 4) % 16)

def Piece.bytes : Piece → Bytes
  | .s text => (cstr text).take 512
  | .name field => cText (field.take ipaResourceNameMax)
  | .hex v => hex32 v
  | .raw data => data

section
variable {σ : Type} (P : Platform σ)

def logOpen : Proc σ Int := do
  loadCfg P
  let w ← get
  sysOpen P w.cfg.logPath 0x441 0o600

def logLines (pieces : List Piece) : Proc σ Unit := do
  let fd ← logOpen P
  if fd < 0 then
    pure ()
  else
    pieces.forM fun p => sysWrite P fd p.bytes
    sysClose P fd

def logKv4 (tag : String) (ifname : Bytes) (a b c d : Nat) (action : String) : Proc σ Unit :=
  logLines P [.s "[ABI] ", .s tag, .s " if=", .name ifname, .s " a=", .hex a, .s " b=", .hex b,
    .s " c=", .hex c, .s " d=", .hex d, .s " action=", .s action, .s "\n"]

def logPropTx (tag : String) (ifname : Bytes) (idx ip dst alt l2 : Nat) (hdr : Bytes) : Proc σ Unit :=
  logLines P [.s "[ABI] ", .s tag, .s " if=", .name ifname, .s " idx=", .hex idx, .s " ip=", .hex ip,
    .s " dst=", .hex dst, .s " alt=", .hex alt, .s " l2=", .hex l2, .s " hdr=", .name hdr, .s "\n"]

def logPropRx (tag : String) (ifname : Bytes) (idx ip src l2 : Nat) : Proc σ Unit :=
  logLines P [.s "[ABI] ", .s tag, .s " if=", .name ifname, .s " idx=", .hex idx, .s " ip=", .hex ip,
    .s " src=", .hex src, .s " l2=", .hex l2, .s "\n"]

def logTranslateIoctl (tag : String) (n : Nat) (ret : Int) : Proc σ Unit :=
  logLines P [.s "[ABI] ", .s tag, .s " translated n=", .hex n, .s " ret=", .hex (ret % 2 ^ 32).toNat,
    .s "\n"]

def ifaceId (name : Bytes) : Nat :=
  if cText name = cstr "eth0" then 0
  else if cText name = cstr "rmnet_data0" then 1
  else if cText name = cstr "rmnet_data1" then 2
  else if cText name = cstr "bridge0" then 3
  else 4

/-- `type * 8 + iface_id` stays below 31 for the three types in use. -/
def logHexdumpOnce (tag : String) (ifname : Bytes) (buf len type : Nat) : Proc σ Unit := do
  loadCfg P
  let w ← get
  let bit := type * 8 + ifaceId ifname
  if !w.cfg.hexdumpOnce || buf = 0 || 31 ≤ bit || w.hexdumpMask.testBit bit then
    pure ()
  else
    modify fun w => { w with hexdumpMask := w.hexdumpMask ||| 2 ^ bit }
    let data := bytesAt w.mem buf (min len 96)
    let out := data.flatMap fun b => [hexDigit (b.toNat / 16), hexDigit (b.toNat % 16)]
    logLines P [.s "[ABI] ", .s tag, .s " if=", .name ifname, .s " hex=", .raw out, .s "\n"]

-- ---------------------------------------------------------------------------
-- Logging leaves the rest alone
-- ---------------------------------------------------------------------------

/-- What a logging function leaves alone even when it is the one that loads
the configuration. -/
structure Silent where
  mem : Mem
  ioctls : List IoctlCall
  cachedFd : Int
  cachedIsIpa : Bool

def World.silent (w : World σ) : Silent := ⟨w.mem, w.ioctls, w.cachedFd, w.cachedIsIpa⟩

variable {P}

theorem Preserves.silent {x : Proc σ α} (h : Preserves World.quiet x) : Preserves World.silent x :=
  h.comp fun q : Quiet => (⟨q.mem, q.ioctls, q.cachedFd, q.cachedIsIpa⟩ : Silent)

theorem loadCfg_silent : Preserves World.silent (loadCfg P) := by
  refine (Preserves.get _).bind fun w => Preserves.ite _ (Preserves.pure _ _) ?_
  exact (Preserves.silent readCfg_quiet).bind fun _ => Preserves.modify fun _ => rfl

theorem logOpen_silent : Preserves World.silent (logOpen P) :=
  loadCfg_silent.bind fun _ => (Preserves.get _).bind fun _ => Preserves.silent (sysOpen_quiet _ _ _)

theorem logLines_silent (pieces : List Piece) : Preserves World.silent (logLines P pieces) := by
  refine logOpen_silent.bind fun fd => Preserves.ite _ (Preserves.pure _ _) ?_
  exact (Preserves.forM _ fun _ => Preserves.silent (sysWrite_quiet _ _)).bind fun _ =>
    Preserves.silent (sysClose_quiet _)

theorem logHexdumpOnce_silent (tag : String) (ifname : Bytes) (buf len type : Nat) :
    Preserves World.silent (logHexdumpOnce P tag ifname buf len type) := by
  refine loadCfg_silent.bind fun _ => (Preserves.get _).bind fun w => ?_
  refine Preserves.ite _ (Preserves.pure _ _) ?_
  refine Preserves.bind (Preserves.modify fun _ => rfl) fun _ => ?_
  exact logLines_silent _

def KeepsCfg (x : Proc σ α) : Prop :=
  ∀ w : World σ, w.cfg.loaded = true → (x.run w).2.cfg = w.cfg

theorem KeepsCfg.bind {x : Proc σ α} {k : α → Proc σ β} (hx : KeepsCfg x) (hk : ∀ a, KeepsCfg (k a)) :
    KeepsCfg (x >>= k) := by
  intro w hw
  have h1 := hx w hw
  have h2 := hk (x.run w).1 (x.run w).2 (by rw [h1]; exact hw)
  exact h2.trans h1

theorem Preserves.keepsCfg {x : Proc σ α} (h : Preserves World.quiet x) : KeepsCfg x :=
  fun w _ => congrArg Quiet.cfg (h w)

theorem KeepsCfg.ite {x y : Proc σ α} (c : Prop) [Decidable c] (hx : KeepsCfg x) (hy : KeepsCfg y) :
    KeepsCfg (if c then x else y) := by
  split
  · exact hx
  · exact hy

theorem KeepsCfg.forM {body : β → Proc σ Unit} (l : List β) (h : ∀ b, KeepsCfg (body b)) :
    KeepsCfg (l.forM body) := by
  induction l with
  | nil => exact Preserves.keepsCfg (Preserves.pure _ ())
  | cons b l ih => exact (h b).bind fun _ => ih

theorem loadCfg_keepsCfg : KeepsCfg (loadCfg P) := fun w hw => by rw [loadCfg_of_loaded hw]

theorem logLines_keepsCfg (pieces : List Piece) : KeepsCfg (logLines P pieces) := by
  have hopen : KeepsCfg (logOpen P) := loadCfg_keepsCfg.bind fun _ =>
    Preserves.keepsCfg ((Preserves.get _).bind fun _ => sysOpen_quiet _ _ _)
  refine hopen.bind fun fd => Preserves.keepsCfg (Preserves.ite _ (Preserves.pure _ _) ?_)
  exact (Preserves.forM _ fun _ => sysWrite_quiet _ _).bind fun _ => sysClose_quiet _

theorem logHexdumpOnce_keepsCfg (tag : String) (ifname : Bytes) (buf len type : Nat) :
    KeepsCfg (logHexdumpOnce P tag ifname buf len type) := by
  refine loadCfg_keepsCfg.bind fun _ => KeepsCfg.bind (fun _ _ => rfl) fun w => ?_
  refine KeepsCfg.ite _ (fun _ _ => rfl) ?_
  exact KeepsCfg.bind (fun _ _ => rfl) fun _ => logLines_keepsCfg _

end

end IpaOffload.Bridge
