import IpaOffload.Bridge.Log

/-!
# Answers to interface property queries

The kernel fills the query buffer with records in the 02300 layout. The
handlers score the buffer under both layouts and, when only the old one is
plausible, widen the records in place, from the last to the first.
-/

namespace IpaOffload.Bridge

open ByteMem StateFrame

-- ---------------------------------------------------------------------------
-- Plausibility
-- ---------------------------------------------------------------------------

def printableScan : Bytes → (seen : Bool) → Bool
  | [], seen => seen
  | c :: cs, seen =>
    if c = 0 then seen else if c < 32 ∨ 126 < c then false else printableScan cs true

def printableName (s : Bytes) : Bool := printableScan (s.take ipaResourceNameMax) false

def txScore (m : Mem) (p offDst offAlt offHdr offL2 : Nat) : Nat :=
  let ip := rd32 m p
  let dst := rd32 m (p + offDst)
  let alt := rd32 m (p + offAlt)
  let l2 := rd32 m (p + offL2)
  (if ip ≤ 1 then 1 else 0) + (if 0 < dst ∧ dst < pipeMax then 1 else 0) +
    (if alt < pipeMax then 1 else 0) + (if l2 ≤ 4 then 1 else 0) +
    (if printableName (bytesAt m (p + offHdr) ipaResourceNameMax) then 1 else 0)

def txScoreLayout (m : Mem) (base n stride offDst offAlt offHdr offL2 : Nat) : Nat :=
  if n = 0 ∨ maxProps < n then 0
  else forRange n (fun i score => score + txScore m (base + i * stride) offDst offAlt offHdr offL2) 0

def rxScore (m : Mem) (p offSrc offL2 : Nat) : Nat :=
  let ip := rd32 m p
  let src := rd32 m (p + offSrc)
  let l2 := rd32 m (p + offL2)
  (if ip ≤ 1 then 1 else 0) + (if 0 < src ∧ src < pipeMax then 1 else 0) + (if l2 ≤ 4 then 1 else 0)

def rxScoreLayout (m : Mem) (base n stride offSrc offL2 : Nat) : Nat :=
  if n = 0 ∨ maxProps < n then 0
  else forRange n (fun i score => score + rxScore m (base + i * stride) offSrc offL2) 0

-- ---------------------------------------------------------------------------
-- Widening
-- ---------------------------------------------------------------------------

/-- One round of the widening loop. `tmp` is the copy of the old record on the
stack. -/
def txWiden (L : TxLayout) (base i : Nat) (m : Mem) : Mem :=
  let newp := base + i * L.size
  let tmp : Nat → UInt8 := fun k => m (base + i * oldTxSize + k)
  let newAttrSize := L.dstPipe - 4
  m |> memZero newp L.size
    |> memPut (newp + L.ip) tmp 4
    |> memPut (newp + L.attrib) (fun k => tmp (4 + k)) (min oldAttrSize newAttrSize)
    |> memPut (newp + L.dstPipe) (fun k => tmp (oldTxDst + k)) 4
    |> memPut (newp + L.altDstPipe) (fun k => tmp (oldTxAlt + k)) 4
    |> memPut (newp + L.hdrName) (fun k => tmp (oldTxHdr + k)) ipaResourceNameMax
    |> memPut (newp + L.hdrL2Type) (fun k => tmp (oldTxL2 + k)) 4

def rxWiden (L : RxLayout) (base i : Nat) (m : Mem) : Mem :=
  let newp := base + i * L.size
  let tmp : Nat → UInt8 := fun k => m (base + i * oldRxSize + k)
  let newAttrSize := L.srcPipe - 4
  m |> memZero newp L.size
    |> memPut (newp + L.ip) tmp 4
    |> memPut (newp + L.attrib) (fun k => tmp (4 + k)) (min oldAttrSize newAttrSize)
    |> memPut (newp + L.srcPipe) (fun k => tmp (oldRxSrc + k)) 4
    |> memPut (newp + L.hdrL2Type) (fun k => tmp (oldRxL2 + k)) 4

/-- `for (idx = n; idx > 0; idx--)` with `i = idx - 1`. -/
def translateTx02300ToNew (L : TxLayout) (q : Nat) (m : Mem) : Mem :=
  let n := rd32 m (q + 32)
  forRange n (fun j => txWiden L (q + queryPrefixSize) (n - 1 - j)) m

def translateRx02300ToNew (L : RxLayout) (q : Nat) (m : Mem) : Mem :=
  let n := rd32 m (q + 32)
  forRange n (fun j => rxWiden L (q + queryPrefixSize) (n - 1 - j)) m

-- ---------------------------------------------------------------------------
-- Handlers
-- ---------------------------------------------------------------------------

def queryAction (c : BridgeCfg) (name : Bytes) (old new threshold : Nat) : String :=
  if c.ifaceTranslateAllowed name then
    if threshold ≤ old ∧ new < threshold then "translate_old_to_new"
    else if threshold ≤ old ∧ threshold ≤ new then
      if c.failClosed then "ambiguous_fail_closed" else "ambiguous_noop"
    else "noop_score"
  else "log_only"

section
variable {σ : Type} (P : Platform σ)

def logTxProps (tag : String) (name : Bytes) (m : Mem) (base n stride offDst offAlt offHdr offL2 : Nat) :
    Proc σ Unit :=
  (List.range (min (min n maxProps) 3)).forM fun i =>
    let p := base + i * stride
    logPropTx P tag name i (rd32 m p) (rd32 m (p + offDst)) (rd32 m (p + offAlt)) (rd32 m (p + offL2))
      (bytesAt m (p + offHdr) ipaResourceNameMax)

def logRxProps (tag : String) (name : Bytes) (m : Mem) (base n stride offSrc offL2 : Nat) : Proc σ Unit :=
  (List.range (min (min n maxProps) 3)).forM fun i =>
    let p := base + i * stride
    logPropRx P tag name i (rd32 m p) (rd32 m (p + offSrc)) (rd32 m (p + offL2))

def handleQueryTx (q : Nat) : Proc σ Unit := do
  loadCfg P
  let w ← get
  let L := P.uapi.tx
  let name := bytesAt w.mem q ipaResourceNameMax
  let n := rd32 w.mem (q + 32)
  let base := q + queryPrefixSize
  if q = 0 ∨ w.cfg.tx = false ∨ w.cfg.ifaceAllowed (cText name) = false then
    pure ()
  else if n = 0 ∨ maxProps < n then
    logKv4 P "QUERY_TX_SKIP" name n 0 0 0 "bad_n"
  else
    logHexdumpOnce P "QUERY_TX_RAW" name q (queryPrefixSize + n * oldTxSize) 0
    let old := txScoreLayout w.mem base n oldTxSize oldTxDst oldTxAlt oldTxHdr oldTxL2
    let new := txScoreLayout w.mem base n L.size L.dstPipe L.altDstPipe L.hdrName L.hdrL2Type
    logTxProps P "TX_OLD" name w.mem base n oldTxSize oldTxDst oldTxAlt oldTxHdr oldTxL2
    if w.cfg.ifaceTranslateAllowed (cText name) = true ∧ n * 4 ≤ old ∧ new < n * 4 then
      modifyMem (translateTx02300ToNew L q)
    else
      pure ()
    logKv4 P "QUERY_TX" name n old new (n * 4) (queryAction w.cfg (cText name) old new (n * 4))
    let w' ← get
    logTxProps P "TX_NEW" name w'.mem base (rd32 w'.mem (q + 32)) L.size L.dstPipe L.altDstPipe L.hdrName
      L.hdrL2Type

def handleQueryRx (q : Nat) : Proc σ Unit := do
  loadCfg P
  let w ← get
  let L := P.uapi.rx
  let name := bytesAt w.mem q ipaResourceNameMax
  let n := rd32 w.mem (q + 32)
  let base := q + queryPrefixSize
  if q = 0 ∨ w.cfg.rx = false ∨ w.cfg.ifaceAllowed (cText name) = false then
    pure ()
  else if n = 0 ∨ maxProps < n then
    logKv4 P "QUERY_RX_SKIP" name n 0 0 0 "bad_n"
  else
    logHexdumpOnce P "QUERY_RX_RAW" name q (queryPrefixSize + n * oldRxSize) 1
    let old := rxScoreLayout w.mem base n oldRxSize oldRxSrc oldRxL2
    let new := rxScoreLayout w.mem base n L.size L.srcPipe L.hdrL2Type
    logRxProps P "RX_OLD" name w.mem base n oldRxSize oldRxSrc oldRxL2
    if w.cfg.ifaceTranslateAllowed (cText name) = true ∧ n * 3 ≤ old ∧ new < n * 3 then
      modifyMem (translateRx02300ToNew L q)
    else
      pure ()
    logKv4 P "QUERY_RX" name n old new (n * 3) (queryAction w.cfg (cText name) old new (n * 3))
    let w' ← get
    logRxProps P "RX_NEW" name w'.mem base (rd32 w'.mem (q + 32)) L.size L.srcPipe L.hdrL2Type

def extPieces (L : ExtLayout) (m : Mem) (q : Nat) (name : Bytes) (i : Nat) : List Piece :=
  let e := q + queryPrefixSize + i * L.size
  [.s "[ABI] EXT if=", .name name, .s " idx=", .hex i, .s " ip=", .hex (rd32 m (e + L.ip)),
    .s " action=", .hex (rd32 m (e + L.action)), .s " rtidx=", .hex (rd32 m (e + L.rtTblIdx)),
    .s " mux=", .hex (m (e + L.muxId)).toNat, .s " xlat=", .hex (m (e + L.isXlatRule)).toNat, .s "\n"]

def handleQueryExt (q : Nat) : Proc σ Unit := do
  loadCfg P
  let w ← get
  let L := P.uapi.ext
  let name := bytesAt w.mem q ipaResourceNameMax
  let n := rd32 w.mem (q + 32)
  if q = 0 ∨ w.cfg.ext = false ∨ w.cfg.ifaceAllowed (cText name) = false then
    pure ()
  else
    logHexdumpOnce P "QUERY_EXT_RAW" name q (queryPrefixSize + min n maxProps * L.size) 2
    logLines P ([.s "[ABI] QUERY_EXT if=", .name name, .s " n=", .hex n,
      .s " action=log_only_layout_same\n"] ++ (List.range (min n 4)).flatMap (extPieces L w.mem q name))

end

end IpaOffload.Bridge
