import IpaOffload.Bridge.Query
import IpaOffload.Bridge.Rules

/-!
# The interposed `ioctl`

Which descriptors are the IPA device, which requests are rebuilt before the
kernel sees them, and what happens to the answer.
-/

namespace IpaOffload.Bridge

open ByteMem StateFrame

-- ---------------------------------------------------------------------------
-- The IPA device
-- ---------------------------------------------------------------------------

/-- The `do ... while (v)` loop over the digits of a descriptor, least
significant first; `none` is the exit when `rev` is full. -/
def revDigits : (room v : Nat) → Option Bytes
  | 0, _ => none
  | room + 1, v =>
    let d := UInt8.ofNat (48 + v % 10)
    if v / 10 = 0 then some [d] else (revDigits room (v / 10)).map (d :: ·)

def fdNumber (fd : Int) : Nat := (fd % 2 ^ 32).toNat

def fdPath (fd : Int) : Option Bytes :=
  (revDigits 12 (fdNumber fd)).map fun rev => cstr "/proc/self/fd/" ++ rev.reverse

def strEqN (a b : Bytes) : (room i : Nat) → Bool
  | 0, _ => true
  | room + 1, i =>
    if a.getD i 0 ≠ b.getD i 0 then false
    else if a.getD i 0 = 0 then true
    else strEqN a b room (i + 1)

def linkIsIpa (link : Bytes) : Bool := strEqN link (cstr "/dev/ipa") 8 0

section
variable {σ : Type} (P : Platform σ)

/-- The cached answer is overwritten before the link is read, and stays 0 when
that fails. -/
def fdIsIpaDev (fd : Int) : Proc σ Bool := do
  let w ← get
  if fd = w.cachedFd then
    return w.cachedIsIpa
  else
    modify fun w => { w with cachedFd := fd, cachedIsIpa := false }
    match fdPath fd with
    | none => return false
    | some path =>
      match ← sysReadlink P path 63 with
      | none => return false
      | some link =>
        if link = [] then
          return false
        else if linkIsIpa link then
          modify fun w => { w with cachedIsIpa := true }
          return true
        else
          return false

-- ---------------------------------------------------------------------------
-- Dispatch
-- ---------------------------------------------------------------------------

def maybeTranslateRtFltIoctl (fd : Int) (request nr arg : Nat) : Proc σ (Option Int) := do
  loadCfg P
  let w ← get
  if w.cfg.rtFltTranslate = false ∨ arg = 0 then return none
  else if nr = P.uapi.nr .addRtRule then translateAddRtIoctl P fd request arg
  else if nr = P.uapi.nr .addFltRule then translateAddFltIoctl P fd request arg
  else if nr = P.uapi.nr .addRtRuleAfter then translateAddRtAfterIoctl P fd request arg
  else if nr = P.uapi.nr .addFltRuleAfter then translateAddFltAfterIoctl P fd request arg
  else if nr = P.uapi.nr .addRtRuleV2 then translateAddRtV2Ioctl P fd request arg
  else if nr = P.uapi.nr .addFltRuleV2 then translateAddFltV2Ioctl P fd request arg
  else if nr = P.uapi.nr .addRtRuleAfterV2 then translateAddRtAfterV2Ioctl P fd request arg
  else if nr = P.uapi.nr .addFltRuleAfterV2 then translateAddFltAfterV2Ioctl P fd request arg
  else if nr = P.uapi.nr .generateFltEq then translateGenerateFltEqIoctl P fd request arg
  else return none

def rtFltPieces (U : Uapi) (m : Mem) (arg : Nat) (r : IpaIoctl) : List Piece :=
  let u32 (f : HdrField) : Piece := .hex (rd32 m (arg + U.off r f))
  let u8 (f : HdrField) : Piece := .hex (m (arg + U.off r f)).toNat
  let tbl : Piece := .name (bytesAt m (arg + U.off r .rtTblName) ipaResourceNameMax)
  match r with
  | .addRtRule => [.s " ADD_RT ip=", u32 .ip, .s " tbl=", tbl, .s " n=", u8 .numRules]
  | .addRtRuleV2 =>
    [.s " ADD_RT_V2 ip=", u32 .ip, .s " tbl=", tbl, .s " n=", u8 .numRules, .s " sz=", u32 .ruleSize]
  | .addRtRuleAfter =>
    [.s " ADD_RT_AFTER ip=", u32 .ip, .s " tbl=", tbl, .s " n=", u8 .numRules,
      .s " after=", u32 .addAfterHdl]
  | .addRtRuleAfterV2 =>
    [.s " ADD_RT_AFTER_V2 ip=", u32 .ip, .s " tbl=", tbl, .s " n=", u8 .numRules,
      .s " after=", u32 .addAfterHdl, .s " sz=", u32 .ruleSize]
  | .mdfyRtRule => [.s " MDFY_RT ip=", u32 .ip, .s " n=", u8 .numRules]
  | .mdfyRtRuleV2 => [.s " MDFY_RT_V2 ip=", u32 .ip, .s " n=", u8 .numRules, .s " sz=", u32 .ruleSize]
  | .delRtRule => [.s " DEL_RT ip=", u32 .ip, .s " n=", u8 .numHdls]
  | .addFltRule =>
    [.s " ADD_FLT ip=", u32 .ip, .s " ep=", u32 .ep, .s " global=", u8 .global, .s " n=", u8 .numRules]
  | .addFltRuleV2 =>
    [.s " ADD_FLT_V2 ip=", u32 .ip, .s " ep=", u32 .ep, .s " global=", u8 .global,
      .s " n=", u8 .numRules, .s " sz=", u32 .ruleSize]
  | .addFltRuleAfter =>
    [.s " ADD_FLT_AFTER ip=", u32 .ip, .s " ep=", u32 .ep, .s " n=", u8 .numRules,
      .s " after=", u32 .addAfterHdl]
  | .addFltRuleAfterV2 =>
    [.s " ADD_FLT_AFTER_V2 ip=", u32 .ip, .s " ep=", u32 .ep, .s " n=", u8 .numRules,
      .s " after=", u32 .addAfterHdl, .s " sz=", u32 .ruleSize]
  | .mdfyFltRule => [.s " MDFY_FLT ip=", u32 .ip, .s " n=", u8 .numRules]
  | .mdfyFltRuleV2 => [.s " MDFY_FLT_V2 ip=", u32 .ip, .s " n=", u8 .numRules, .s " sz=", u32 .ruleSize]
  | .delFltRule => [.s " DEL_FLT ip=", u32 .ip, .s " n=", u8 .numHdls]
  | .generateFltEq => [.s " GENERATE_FLT_EQ"]
  | .queryIntfTxProps | .queryIntfRxProps | .queryIntfExtProps => []

def ruleIoctls : List IpaIoctl :=
  [.addRtRule, .addRtRuleV2, .addRtRuleAfter, .addRtRuleAfterV2, .mdfyRtRule, .mdfyRtRuleV2, .delRtRule,
    .addFltRule, .addFltRuleV2, .addFltRuleAfter, .addFltRuleAfterV2, .mdfyFltRule, .mdfyFltRuleV2,
    .delFltRule, .generateFltEq]

def logRtFlt (nr arg : Nat) (ret : Int) : Proc σ Unit := do
  loadCfg P
  let w ← get
  if w.cfg.rtFltLog = false ∨ arg = 0 then
    pure ()
  else
    let named := (ruleIoctls.filter fun r => P.uapi.nr r = nr).flatMap (rtFltPieces P.uapi w.mem arg)
    logLines P ([.s "[ABI] IOC nr=", .hex nr, .s " ret=", .hex (ret % 2 ^ 32).toNat] ++ named ++ [.s "\n"])

/-- `long` and `int` are both 32 bits wide on the target. -/
def castInt (r : Int) : Int := r.bmod (2 ^ 32)

def iocType (request : Nat) : Nat := request / 2 ^ 8 % 2 ^ 8

def iocNr (request : Nat) : Nat := request % 2 ^ 8

def handleAnswer (nr arg : Nat) : Proc σ Unit :=
  if nr = P.uapi.nr .queryIntfTxProps then handleQueryTx P arg
  else if nr = P.uapi.nr .queryIntfRxProps then handleQueryRx P arg
  else if nr = P.uapi.nr .queryIntfExtProps then handleQueryExt P arg
  else pure ()

def ioctl (fd : Int) (request arg : Nat) : Proc σ Int := do
  let type := iocType request
  let nr := iocNr request
  if type ≠ P.uapi.magic then
    let ret ← sysIoctl P fd request arg
    return castInt ret
  else
    let isIpa ← fdIsIpaDev P fd
    if isIpa = false then
      let ret ← sysIoctl P fd request arg
      return castInt ret
    else
      match ← maybeTranslateRtFltIoctl P fd request nr arg with
      | some ret =>
        logRtFlt P nr arg ret
        return castInt ret
      | none =>
        let ret ← sysIoctl P fd request arg
        if 0 ≤ ret ∧ arg ≠ 0 then handleAnswer P nr arg else pure ()
        if arg ≠ 0 ∧ nr ∈ ruleIoctls.map P.uapi.nr then logRtFlt P nr arg ret else pure ()
        return castInt ret

end

end IpaOffload.Bridge
