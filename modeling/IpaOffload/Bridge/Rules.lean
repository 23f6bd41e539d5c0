import IpaOffload.Bridge.Log

/-!
# Route and filter rules

Requests that carry rules are rebuilt in the 02300 layout in a buffer on the
stack, the kernel is called on that buffer, and the handle and status of each
rule are copied back. The eight `translate_add_*_ioctl` functions are one
function of an `AddSpec`; what the source writes out in each of them is the
value of its spec.
-/

namespace IpaOffload.Bridge

open ByteMem StateFrame

-- ---------------------------------------------------------------------------
-- Rules
-- ---------------------------------------------------------------------------

def attrNewToOld (oldp newp : Nat) (m : Mem) : Mem :=
  m |> memZero oldp oldAttrSize |> memCopy oldp newp attrCommonSize

def rtRuleNewToOld (U : Uapi) (oldp newp : Nat) (m : Mem) : Mem :=
  m |> memZero oldp oldRtRuleSize
    |> memCopy oldp newp 12
    |> attrNewToOld (oldp + 12) (newp + 12)
    |> memCopy (oldp + 164) (newp + U.rtMaxPrio) 4

def fltRuleNewToOld (U : Uapi) (oldp newp : Nat) (m : Mem) : Mem :=
  m |> memZero oldp oldFltRuleSize
    |> memCopy oldp newp 12
    |> attrNewToOld (oldp + 12) (newp + 12)
    |> memCopy (oldp + 164) (newp + U.fltEqAttrib) 184
    |> memCopy (oldp + 348) (newp + U.fltRtTblIdx) 12

/-- Byte `k` of the old rule, from the bytes `f` of the new record. -/
def rtImage (U : Uapi) (f : Nat → UInt8) (k : Nat) : UInt8 :=
  if k < 160 then f k else if k < 164 then 0 else f (U.rtMaxPrio + (k - 164))

def fltImage (U : Uapi) (f : Nat → UInt8) (k : Nat) : UInt8 :=
  if k < 160 then f k else if k < 164 then 0
  else if k < 348 then f (U.fltEqAttrib + (k - 164)) else f (U.fltRtTblIdx + (k - 348))

theorem attrNewToOld_apply (oldp newp : Nat) (m : Mem) (a : Nat)
    (h : Apart oldp oldAttrSize newp attrCommonSize) :
    attrNewToOld oldp newp m a =
      if In oldp attrCommonSize a then m (newp + (a - oldp)) else if In oldp oldAttrSize a then 0
      else m a := by
  have h' : Apart oldp attrCommonSize newp attrCommonSize := by
    simp only [Apart, oldAttrSize, attrCommonSize] at h ⊢; omega
  simp only [attrNewToOld, memCopy_apply _ _ _ _ _ h', memZero_apply]
  simp only [Apart, In, oldAttrSize, attrCommonSize] at h ⊢
  grind

theorem rtRuleNewToOld_apply (U : Uapi) (oldp newp : Nat) (m : Mem) (a : Nat)
    (h : Apart oldp oldRtRuleSize newp U.rtAdd.size) :
    rtRuleNewToOld U oldp newp m a =
      if In oldp oldRtRuleSize a then rtImage U (fun k => m (newp + k)) (a - oldp) else m a := by
  have hf := U.rt_fields
  have h1 := U.rtAdd.atRear_lt
  have h2 := U.rtAdd.hdl_le
  have h3 := U.rtAdd.status_le
  simp only [Apart, oldRtRuleSize, attrCommonSize] at h hf
  have e1 : Apart oldp 12 newp 12 := by unfold Apart; omega
  have e2 : Apart (oldp + 12) oldAttrSize (newp + 12) attrCommonSize := by
    simp only [Apart, oldAttrSize, attrCommonSize]; omega
  have e3 : Apart (oldp + 164) 4 (newp + U.rtMaxPrio) 4 := by unfold Apart; omega
  simp only [rtRuleNewToOld, memCopy_apply _ _ _ _ _ e3, attrNewToOld_apply _ _ _ _ e2,
    memCopy_apply _ _ _ _ _ e1, memZero_apply]
  simp only [In, rtImage, oldAttrSize, attrCommonSize, oldRtRuleSize]
  grind

theorem fltRuleNewToOld_apply (U : Uapi) (oldp newp : Nat) (m : Mem) (a : Nat)
    (h : Apart oldp oldFltRuleSize newp U.fltAdd.size) :
    fltRuleNewToOld U oldp newp m a =
      if In oldp oldFltRuleSize a then fltImage U (fun k => m (newp + k)) (a - oldp) else m a := by
  have hf := U.flt_fields
  have h1 := U.fltAdd.atRear_lt
  have h2 := U.fltAdd.hdl_le
  have h3 := U.fltAdd.status_le
  simp only [Apart, oldFltRuleSize, attrCommonSize] at h hf
  have e1 : Apart oldp 12 newp 12 := by unfold Apart; omega
  have e2 : Apart (oldp + 12) oldAttrSize (newp + 12) attrCommonSize := by
    simp only [Apart, oldAttrSize, attrCommonSize]; omega
  have e3 : Apart (oldp + 164) 184 (newp + U.fltEqAttrib) 184 := by unfold Apart; omega
  have e4 : Apart (oldp + 348) 12 (newp + U.fltRtTblIdx) 12 := by unfold Apart; omega
  simp only [fltRuleNewToOld, memCopy_apply _ _ _ _ _ e4, memCopy_apply _ _ _ _ _ e3,
    attrNewToOld_apply _ _ _ _ e2, memCopy_apply _ _ _ _ _ e1, memZero_apply]
  simp only [In, fltImage, oldAttrSize, attrCommonSize, oldFltRuleSize]
  grind

-- ---------------------------------------------------------------------------
-- Rule records
-- ---------------------------------------------------------------------------

/-- A record of an `ADD_*` request in both layouts, with the function that
translates its rule and what that function does. -/
structure RecordKind where
  ruleSize : Nat
  oldSize : Nat
  oldAtRear : Nat
  oldHdl : Nat
  oldStatus : Nat
  new : RuleAddLayout
  toOld : (oldp newp : Nat) → Mem → Mem
  image : (Nat → UInt8) → Nat → UInt8
  old_fields : ruleSize ≤ oldAtRear ∧ oldAtRear < oldHdl ∧ oldHdl + 4 ≤ oldStatus ∧ oldStatus + 4 ≤ oldSize
  toOld_apply : ∀ oldp newp m a, Apart oldp ruleSize newp new.size →
    toOld oldp newp m a = if In oldp ruleSize a then image (fun k => m (newp + k)) (a - oldp) else m a
  /-- The rule is translated from the bytes of the record alone. -/
  image_congr : ∀ f g k, (∀ j, j < new.size → f j = g j) → k < ruleSize → image f k = image g k

theorem rtImage_congr (U : Uapi) (f g : Nat → UInt8) (k : Nat) (h : ∀ j, j < U.rtAdd.size → f j = g j)
    (hk : k < oldRtRuleSize) : rtImage U f k = rtImage U g k := by
  have hf := U.rt_fields
  have h1 := U.rtAdd.atRear_lt
  have h2 := U.rtAdd.hdl_le
  have h3 := U.rtAdd.status_le
  simp only [oldRtRuleSize, attrCommonSize] at hk hf
  unfold rtImage
  split
  · exact h _ (by omega)
  · split
    · rfl
    · exact h _ (by omega)

theorem fltImage_congr (U : Uapi) (f g : Nat → UInt8) (k : Nat) (h : ∀ j, j < U.fltAdd.size → f j = g j)
    (hk : k < oldFltRuleSize) : fltImage U f k = fltImage U g k := by
  have hf := U.flt_fields
  have h1 := U.fltAdd.atRear_lt
  have h2 := U.fltAdd.hdl_le
  have h3 := U.fltAdd.status_le
  simp only [oldFltRuleSize, attrCommonSize] at hk hf
  unfold fltImage
  split
  · exact h _ (by omega)
  · split
    · rfl
    · split <;> exact h _ (by omega)

def rtKind (U : Uapi) : RecordKind where
  ruleSize := oldRtRuleSize
  oldSize := oldRtAddSize
  oldAtRear := oldRtAddAtRear
  oldHdl := oldRtAddHdl
  oldStatus := oldRtAddStatus
  new := U.rtAdd
  toOld := rtRuleNewToOld U
  image := rtImage U
  old_fields := by decide
  toOld_apply := rtRuleNewToOld_apply U
  image_congr := rtImage_congr U

def fltKind (U : Uapi) : RecordKind where
  ruleSize := oldFltRuleSize
  oldSize := oldFltAddSize
  oldAtRear := oldFltAddAtRear
  oldHdl := oldFltAddHdl
  oldStatus := oldFltAddStatus
  new := U.fltAdd
  toOld := fltRuleNewToOld U
  image := fltImage U
  old_fields := by decide
  toOld_apply := fltRuleNewToOld_apply U
  image_congr := fltImage_congr U

-- ---------------------------------------------------------------------------
-- The translators of the ADD requests
-- ---------------------------------------------------------------------------

/-- What distinguishes one `translate_add_*_ioctl` from the others. -/
structure AddSpec where
  req : IpaIoctl
  kind : RecordKind
  hdr : Nat
  v2 : Bool
  tag : String
  hdr_eq : hdr = addHdrSize req
  v2_eq : v2 = req.isV2Add

namespace AddSpec

variable (s : AddSpec) (U : Uapi)

def bufSize : Nat := s.hdr + rtFltMaxTranslateRules * s.kind.oldSize

def numRules (m : Mem) (arg : Nat) : Nat := (m (arg + U.off s.req .numRules)).toNat

def rulesField (m : Mem) (arg : Nat) : Nat := rd64 m (arg + U.off s.req .rules)

/-- `&arg->rules[0]`, or for a V2 request `(uint8_t *)(uintptr_t)arg->rules`. -/
def newRules (m : Mem) (arg : Nat) : Nat :=
  if s.v2 then s.rulesField U m arg % 2 ^ 32 else arg + U.off s.req .rules

/-- The early exits: the translator goes on to call the kernel. -/
def accepts (m : Mem) (arg : Nat) : Bool :=
  arg ≠ 0 ∧ s.numRules U m arg ≠ 0 ∧ s.numRules U m arg ≤ rtFltMaxTranslateRules ∧
    (s.v2 = true → s.rulesField U m arg ≠ 0)

/-- The zeroed buffer with the caller's header; a V2 header then gets the old
record size and the address of the rules in the buffer. -/
def putHeader (buf arg : Nat) (m : Mem) : Mem :=
  let m := m |> memZero buf s.bufSize |> memCopy buf arg s.hdr
  if s.v2 then
    m |> wr32 (buf + U.off s.req .ruleSize) s.kind.oldSize
      |> wr64 (buf + U.off s.req .rules) (buf + s.hdr)
  else m

def putRecord (oldp newp : Nat) (m : Mem) : Mem :=
  m |> s.kind.toOld oldp newp |> memCopy (oldp + s.kind.oldAtRear) (newp + s.kind.new.atRear) 1

def build (buf arg : Nat) (m : Mem) : Mem :=
  let oldRules := buf + s.hdr
  let newRules := s.newRules U m arg
  forRange (s.numRules U m arg)
    (fun i => s.putRecord (oldRules + i * s.kind.oldSize) (newRules + i * s.kind.new.size))
    (s.putHeader U buf arg m)

def backRecord (newp oldp : Nat) (m : Mem) : Mem :=
  m |> memCopy (newp + s.kind.new.hdl) (oldp + s.kind.oldHdl) 4
    |> memCopy (newp + s.kind.new.status) (oldp + s.kind.oldStatus) 4

def copyBack (buf newRules n : Nat) (m : Mem) : Mem :=
  let oldRules := buf + s.hdr
  forRange n (fun i => s.backRecord (newRules + i * s.kind.new.size) (oldRules + i * s.kind.oldSize)) m

end AddSpec

section
variable {σ : Type} (P : Platform σ)

/-- `none` where the source returns 0, having done nothing; `some ret` where it
returns 1 with `*retp = ret`. -/
def translateAddIoctl (s : AddSpec) (fd : Int) (request arg : Nat) : Proc σ (Option Int) := do
  let w ← get
  let n := s.numRules P.uapi w.mem arg
  let newRules := s.newRules P.uapi w.mem arg
  if s.accepts P.uapi w.mem arg = false then
    return none
  else
    modifyMem (s.build P.uapi P.buf arg)
    let ret ← sysIoctl P fd request P.buf
    modifyMem (s.copyBack P.buf newRules n)
    logTranslateIoctl P s.tag n ret
    return some ret

def addRtSpec (U : Uapi) : AddSpec := ⟨.addRtRule, rtKind U, 44, false, "ADD_RT", rfl, rfl⟩
def addRtV2Spec (U : Uapi) : AddSpec := ⟨.addRtRuleV2, rtKind U, 64, true, "ADD_RT_V2", rfl, rfl⟩
def addFltSpec (U : Uapi) : AddSpec := ⟨.addFltRule, fltKind U, 16, false, "ADD_FLT", rfl, rfl⟩
def addFltV2Spec (U : Uapi) : AddSpec := ⟨.addFltRuleV2, fltKind U, 40, true, "ADD_FLT_V2", rfl, rfl⟩
def addRtAfterSpec (U : Uapi) : AddSpec :=
  ⟨.addRtRuleAfter, rtKind U, 48, false, "ADD_RT_AFTER", rfl, rfl⟩
def addRtAfterV2Spec (U : Uapi) : AddSpec :=
  ⟨.addRtRuleAfterV2, rtKind U, 64, true, "ADD_RT_AFTER_V2", rfl, rfl⟩
def addFltAfterSpec (U : Uapi) : AddSpec :=
  ⟨.addFltRuleAfter, fltKind U, 20, false, "ADD_FLT_AFTER", rfl, rfl⟩
def addFltAfterV2Spec (U : Uapi) : AddSpec :=
  ⟨.addFltRuleAfterV2, fltKind U, 40, true, "ADD_FLT_AFTER_V2", rfl, rfl⟩

def addSpecs (U : Uapi) : List AddSpec :=
  [addRtSpec U, addRtV2Spec U, addFltSpec U, addFltV2Spec U,
    addRtAfterSpec U, addRtAfterV2Spec U, addFltAfterSpec U, addFltAfterV2Spec U]

def translateAddRtIoctl := translateAddIoctl P (addRtSpec P.uapi)
def translateAddRtV2Ioctl := translateAddIoctl P (addRtV2Spec P.uapi)
def translateAddFltIoctl := translateAddIoctl P (addFltSpec P.uapi)
def translateAddFltV2Ioctl := translateAddIoctl P (addFltV2Spec P.uapi)
def translateAddRtAfterIoctl := translateAddIoctl P (addRtAfterSpec P.uapi)
def translateAddRtAfterV2Ioctl := translateAddIoctl P (addRtAfterV2Spec P.uapi)
def translateAddFltAfterIoctl := translateAddIoctl P (addFltAfterSpec P.uapi)
def translateAddFltAfterV2Ioctl := translateAddIoctl P (addFltAfterV2Spec P.uapi)

def genEqBuild (U : Uapi) (buf arg : Nat) (m : Mem) : Mem :=
  m |> memZero buf oldGenEqSize
    |> memCopy buf arg 4
    |> attrNewToOld (buf + oldGenEqAttr) (arg + U.genEqAttrib)

/-- Unlike the ADD translators this one copies nothing back when the call
fails. -/
def translateGenerateFltEqIoctl (fd : Int) (request arg : Nat) : Proc σ (Option Int) := do
  if arg = 0 then
    return none
  else
    modifyMem (genEqBuild P.uapi P.buf arg)
    let ret ← sysIoctl P fd request P.buf
    if 0 ≤ ret then
      modifyMem (memCopy (arg + P.uapi.genEqEq) (P.buf + oldGenEqEq) 184)
    else
      pure ()
    logTranslateIoctl P "GENERATE_FLT_EQ" 1 ret
    return some ret

end

end IpaOffload.Bridge
