import Mathlib.Tactic.Common

/-!
# The two IPA user ABIs

The bridge sits between `ipacm`, compiled against the newer `linux/msm_ipa.h`,
and a 02300 kernel. The 02300 side is written out in the bridge as constants.
The newer side reaches it through `sizeof` and `offsetof`; that header is not
part of the repository, so its numbers are the fields of `Uapi`, which also
states the order of the fields the bridge relies on. `uapi13900` has the
numbers of the header the modem build uses.
-/

namespace IpaOffload.Bridge

-- ---------------------------------------------------------------------------
-- Constants of the bridge
-- ---------------------------------------------------------------------------

def ipaResourceNameMax : Nat := 32
def maxEnvBuf : Nat := 4096
def maxCfgStr : Nat := 256
def maxLogPath : Nat := 160
def maxProps : Nat := 16
def oldAttrSize : Nat := 152
def oldTxSize : Nat := 200
def oldRxSize : Nat := 164
def oldTxDst : Nat := 156
def oldTxAlt : Nat := 160
def oldTxHdr : Nat := 164
def oldTxL2 : Nat := 196
def oldRxSrc : Nat := 156
def oldRxL2 : Nat := 160
def queryPrefixSize : Nat := 36
def pipeMax : Nat := 1024
def rtFltMaxTranslateRules : Nat := 8
def attrCommonSize : Nat := 148
def oldRtRuleSize : Nat := 168
def oldRtAddSize : Nat := 180
def oldRtAddAtRear : Nat := 168
def oldRtAddHdl : Nat := 172
def oldRtAddStatus : Nat := 176
def oldFltRuleSize : Nat := 360
def oldFltAddSize : Nat := 372
def oldFltAddAtRear : Nat := 360
def oldFltAddHdl : Nat := 364
def oldFltAddStatus : Nat := 368
def oldGenEqSize : Nat := 340
def oldGenEqAttr : Nat := 4
def oldGenEqEq : Nat := 156

-- ---------------------------------------------------------------------------
-- Requests
-- ---------------------------------------------------------------------------

inductive IpaIoctl
  | queryIntfTxProps
  | queryIntfRxProps
  | queryIntfExtProps
  | addRtRule
  | addRtRuleV2
  | addRtRuleAfter
  | addRtRuleAfterV2
  | mdfyRtRule
  | mdfyRtRuleV2
  | delRtRule
  | addFltRule
  | addFltRuleV2
  | addFltRuleAfter
  | addFltRuleAfterV2
  | mdfyFltRule
  | mdfyFltRuleV2
  | delFltRule
  | generateFltEq
  deriving DecidableEq, Repr

inductive HdrField
  | ip
  | rtTblName
  | ep
  | global
  | numRules
  | numHdls
  | addAfterHdl
  | ruleSize
  | rules
  deriving DecidableEq, Repr

/-- Bytes before the rules of an `ADD_*` request; all of the struct for a V2
request, whose rules are behind a pointer. -/
def addHdrSize : IpaIoctl → Nat
  | .addRtRule => 44
  | .addRtRuleV2 => 64
  | .addRtRuleAfter => 48
  | .addRtRuleAfterV2 => 64
  | .addFltRule => 16
  | .addFltRuleV2 => 40
  | .addFltRuleAfter => 20
  | .addFltRuleAfterV2 => 40
  | _ => 0

def IpaIoctl.isV2Add : IpaIoctl → Bool
  | .addRtRuleV2 | .addRtRuleAfterV2 | .addFltRuleV2 | .addFltRuleAfterV2 => true
  | _ => false

-- ---------------------------------------------------------------------------
-- Layouts of the newer header
-- ---------------------------------------------------------------------------

structure RuleAddLayout where
  size : Nat
  atRear : Nat
  hdl : Nat
  status : Nat
  atRear_lt : atRear < hdl
  hdl_le : hdl + 4 ≤ status
  status_le : status + 4 ≤ size

structure TxLayout where
  size : Nat
  ip : Nat
  attrib : Nat
  dstPipe : Nat
  altDstPipe : Nat
  hdrName : Nat
  hdrL2Type : Nat

structure RxLayout where
  size : Nat
  ip : Nat
  attrib : Nat
  srcPipe : Nat
  hdrL2Type : Nat

structure ExtLayout where
  size : Nat
  ip : Nat
  action : Nat
  rtTblIdx : Nat
  muxId : Nat
  isXlatRule : Nat

structure Uapi where
  magic : Nat
  nr : IpaIoctl → Nat
  nr_inj : ∀ a b, nr a = nr b → a = b
  off : IpaIoctl → HdrField → Nat
  numRules_lt : ∀ r, 0 < addHdrSize r → off r .numRules < addHdrSize r
  /-- The rules of the other requests follow the header. -/
  rules_eq : ∀ r, 0 < addHdrSize r → r.isV2Add = false → off r .rules = addHdrSize r
  /-- The size field and the 64-bit pointer of a V2 request lie apart, inside the struct. -/
  v2_fields : ∀ r, r.isV2Add = true →
    off r .ruleSize + 4 ≤ off r .rules ∧ off r .rules + 8 ≤ addHdrSize r
  rtAdd : RuleAddLayout
  rtMaxPrio : Nat
  rt_fields : 12 + attrCommonSize ≤ rtMaxPrio ∧ rtMaxPrio + 4 ≤ rtAdd.atRear
  fltAdd : RuleAddLayout
  fltEqAttrib : Nat
  fltRtTblIdx : Nat
  flt_fields : 12 + attrCommonSize ≤ fltEqAttrib ∧ fltEqAttrib + 184 ≤ fltRtTblIdx ∧
    fltRtTblIdx + 12 ≤ fltAdd.atRear
  genEqSize : Nat
  genEqAttrib : Nat
  genEqEq : Nat
  genEq_fields : 4 ≤ genEqAttrib ∧ genEqAttrib + attrCommonSize ≤ genEqEq ∧ genEqEq + 184 ≤ genEqSize
  tx : TxLayout
  rx : RxLayout
  ext : ExtLayout

theorem Uapi.nr_eq_iff (U : Uapi) {a b : IpaIoctl} : U.nr a = U.nr b ↔ a = b :=
  ⟨U.nr_inj a b, congrArg U.nr⟩

/-- Request numbers of the 13900 header. The repository documents `0x47` for
`ADD_FLT_RULE_V2`; of the others the bridge only needs that they differ. -/
def nr13900 : IpaIoctl → Nat
  | .addRtRule => 2
  | .delRtRule => 3
  | .addFltRule => 4
  | .delFltRule => 5
  | .queryIntfTxProps => 17
  | .queryIntfRxProps => 18
  | .generateFltEq => 30
  | .queryIntfExtProps => 31
  | .mdfyFltRule => 35
  | .mdfyRtRule => 41
  | .addRtRuleAfter => 42
  | .addFltRuleAfter => 43
  | .addRtRuleV2 => 0x44
  | .addRtRuleAfterV2 => 0x46
  | .addFltRuleV2 => 0x47
  | .addFltRuleAfterV2 => 0x48
  | .mdfyRtRuleV2 => 0x49
  | .mdfyFltRuleV2 => 0x4a

def off13900 : IpaIoctl → HdrField → Nat
  | _, .ip => 4
  | .mdfyRtRule, .numRules | .mdfyFltRule, .numRules => 8
  | .mdfyRtRuleV2, .numRules | .mdfyFltRuleV2, .numRules => 8
  | .mdfyRtRuleV2, .ruleSize | .mdfyFltRuleV2, .ruleSize => 12
  | _, .rtTblName => 8
  | _, .ep => 8
  | _, .global => 12
  | .addFltRule, .numRules | .addFltRuleV2, .numRules => 13
  | .addFltRuleAfter, .numRules | .addFltRuleAfterV2, .numRules => 12
  | _, .numRules => 40
  | _, .numHdls => 8
  | .addFltRuleAfter, .addAfterHdl | .addFltRuleAfterV2, .addAfterHdl => 16
  | _, .addAfterHdl => 44
  | .addRtRuleV2, .ruleSize => 44
  | .addRtRuleAfterV2, .ruleSize => 48
  | .addFltRuleV2, .ruleSize => 16
  | _, .ruleSize => 20
  | .addRtRuleV2, .rules | .addRtRuleAfterV2, .rules => 56
  | .addRtRule, .rules => 44
  | .addRtRuleAfter, .rules => 48
  | .addFltRule, .rules => 16
  | .addFltRuleAfter, .rules => 20
  | _, .rules => 32

/-- The 13900 header as compiled for the modem: 164 bytes of rule attributes,
rule records of 192 and 384 bytes, interface properties of 212 and 176. -/
def uapi13900 : Uapi where
  magic := 0xCF
  nr := nr13900
  nr_inj := by intro a b; cases a <;> cases b <;> simp [nr13900]
  off := off13900
  numRules_lt := by intro r; cases r <;> simp [off13900, addHdrSize]
  rules_eq := by intro r; cases r <;> simp [IpaIoctl.isV2Add, off13900, addHdrSize]
  v2_fields := by intro r; cases r <;> simp [IpaIoctl.isV2Add, off13900, addHdrSize]
  rtAdd := ⟨192, 180, 184, 188, by decide, by decide, by decide⟩
  rtMaxPrio := 176
  rt_fields := by decide
  fltAdd := ⟨384, 372, 376, 380, by decide, by decide, by decide⟩
  fltEqAttrib := 176
  fltRtTblIdx := 360
  flt_fields := by decide
  genEqSize := 352
  genEqAttrib := 4
  genEqEq := 168
  genEq_fields := by decide
  tx := ⟨212, 0, 4, 168, 172, 176, 208⟩
  rx := ⟨176, 0, 4, 168, 172⟩
  ext := ⟨364, 0, 188, 192, 196, 206⟩

end IpaOffload.Bridge
