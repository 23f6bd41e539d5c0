import IpaOffload.Bridge.Query

/-!
# Widening answers in place

A record of a query answer is read as a `TxProp` or an `RxProp`, under the
02300 offsets or under those of a newer header. Widening moves every record
to its new place without losing anything of it: the record found there by the
new offsets is the one the old offsets gave.
-/

namespace IpaOffload.Bridge

open ByteMem

-- ---------------------------------------------------------------------------
-- Records
-- ---------------------------------------------------------------------------

structure TxProp where
  ip : Nat
  /-- The 152 attribute bytes both headers have. -/
  attrib : Bytes
  dstPipe : Nat
  altDstPipe : Nat
  hdrName : Bytes
  hdrL2Type : Nat
  deriving DecidableEq

structure RxProp where
  ip : Nat
  attrib : Bytes
  srcPipe : Nat
  hdrL2Type : Nat
  deriving DecidableEq

def oldTxProp (m : Mem) (p : Nat) : TxProp where
  ip := rd32 m p
  attrib := bytesAt m (p + 4) oldAttrSize
  dstPipe := rd32 m (p + oldTxDst)
  altDstPipe := rd32 m (p + oldTxAlt)
  hdrName := bytesAt m (p + oldTxHdr) ipaResourceNameMax
  hdrL2Type := rd32 m (p + oldTxL2)

def newTxProp (L : TxLayout) (m : Mem) (p : Nat) : TxProp where
  ip := rd32 m (p + L.ip)
  attrib := bytesAt m (p + L.attrib) oldAttrSize
  dstPipe := rd32 m (p + L.dstPipe)
  altDstPipe := rd32 m (p + L.altDstPipe)
  hdrName := bytesAt m (p + L.hdrName) ipaResourceNameMax
  hdrL2Type := rd32 m (p + L.hdrL2Type)

def oldRxProp (m : Mem) (p : Nat) : RxProp where
  ip := rd32 m p
  attrib := bytesAt m (p + 4) oldAttrSize
  srcPipe := rd32 m (p + oldRxSrc)
  hdrL2Type := rd32 m (p + oldRxL2)

def newRxProp (L : RxLayout) (m : Mem) (p : Nat) : RxProp where
  ip := rd32 m (p + L.ip)
  attrib := bytesAt m (p + L.attrib) oldAttrSize
  srcPipe := rd32 m (p + L.srcPipe)
  hdrL2Type := rd32 m (p + L.hdrL2Type)

/-- `struct ipa_ioc_tx_intf_prop` as a compiler lays it out: every member is
aligned to four bytes, so each follows the one before it directly. Headers
differ in the size of `attrib`. -/
structure TxLayout.Packed (L : TxLayout) : Prop where
  ip : L.ip = 0
  attrib : L.attrib = 4
  dstPipe : L.attrib ≤ L.dstPipe
  altDstPipe : L.altDstPipe = L.dstPipe + 4
  hdrName : L.hdrName = L.altDstPipe + 4
  hdrL2Type : L.hdrL2Type = L.hdrName + ipaResourceNameMax
  size : L.size = L.hdrL2Type + 4

structure RxLayout.Packed (L : RxLayout) : Prop where
  ip : L.ip = 0
  attrib : L.attrib = 4
  srcPipe : L.attrib ≤ L.srcPipe
  hdrL2Type : L.hdrL2Type = L.srcPipe + 4
  size : L.size = L.hdrL2Type + 4

structure Uapi.Wider (U : Uapi) : Prop where
  tx : U.tx.Packed
  rx : U.rx.Packed
  txSize : oldTxSize ≤ U.tx.size
  rxSize : oldRxSize ≤ U.rx.size

theorem uapi13900_wider : uapi13900.Wider :=
  ⟨⟨rfl, rfl, by decide, rfl, rfl, rfl, rfl⟩, ⟨rfl, rfl, by decide, rfl, rfl⟩, by decide, by decide⟩

def TxProp.score (r : TxProp) : Nat :=
  (if r.ip ≤ 1 then 1 else 0) + (if 0 < r.dstPipe ∧ r.dstPipe < pipeMax then 1 else 0) +
    (if r.altDstPipe < pipeMax then 1 else 0) + (if r.hdrL2Type ≤ 4 then 1 else 0) +
    (if printableName r.hdrName then 1 else 0)

def RxProp.score (r : RxProp) : Nat :=
  (if r.ip ≤ 1 then 1 else 0) + (if 0 < r.srcPipe ∧ r.srcPipe < pipeMax then 1 else 0) +
    (if r.hdrL2Type ≤ 4 then 1 else 0)

def oldTxAt (m : Mem) (q i : Nat) : TxProp := oldTxProp m (q + queryPrefixSize + i * oldTxSize)

def newTxAt (L : TxLayout) (m : Mem) (q i : Nat) : TxProp := newTxProp L m (q + queryPrefixSize + i * L.size)

def oldRxAt (m : Mem) (q i : Nat) : RxProp := oldRxProp m (q + queryPrefixSize + i * oldRxSize)

def newRxAt (L : RxLayout) (m : Mem) (q i : Nat) : RxProp := newRxProp L m (q + queryPrefixSize + i * L.size)

/-- The total of `n` records, or 0 for a count that is out of range. -/
def scoreAll (n : Nat) (score : Nat → Nat) : Nat :=
  if n = 0 ∨ maxProps < n then 0 else forRange n (fun i total => total + score i) 0

def oldTxScore (m : Mem) (q n : Nat) : Nat :=
  txScoreLayout m (q + queryPrefixSize) n oldTxSize oldTxDst oldTxAlt oldTxHdr oldTxL2

def newTxScore (L : TxLayout) (m : Mem) (q n : Nat) : Nat :=
  txScoreLayout m (q + queryPrefixSize) n L.size L.dstPipe L.altDstPipe L.hdrName L.hdrL2Type

def oldRxScore (m : Mem) (q n : Nat) : Nat :=
  rxScoreLayout m (q + queryPrefixSize) n oldRxSize oldRxSrc oldRxL2

def newRxScore (L : RxLayout) (m : Mem) (q n : Nat) : Nat :=
  rxScoreLayout m (q + queryPrefixSize) n L.size L.srcPipe L.hdrL2Type

theorem scoreAll_congr {f g : Nat → Nat} (h : ∀ i, i < n → f i = g i) : scoreAll n f = scoreAll n g := by
  unfold scoreAll
  split
  · rfl
  · exact forRange_congr (fun i total hi => by rw [h i hi]) 0

theorem oldTxScore_eq (m : Mem) (q n : Nat) :
    oldTxScore m q n = scoreAll n fun i => (oldTxAt m q i).score := rfl

theorem oldRxScore_eq (m : Mem) (q n : Nat) :
    oldRxScore m q n = scoreAll n fun i => (oldRxAt m q i).score := rfl

theorem newTxScore_eq {L : TxLayout} (hL : L.Packed) (m : Mem) (q n : Nat) :
    newTxScore L m q n = scoreAll n fun i => (newTxAt L m q i).score := by
  refine scoreAll_congr fun i _ => ?_
  simp only [txScore, TxProp.score, newTxAt, newTxProp, hL.ip, Nat.add_zero]

theorem newRxScore_eq {L : RxLayout} (hL : L.Packed) (m : Mem) (q n : Nat) :
    newRxScore L m q n = scoreAll n fun i => (newRxAt L m q i).score := by
  refine scoreAll_congr fun i _ => ?_
  simp only [rxScore, RxProp.score, newRxAt, newRxProp, hL.ip, Nat.add_zero]

theorem bytesAt_congr {m m' : Mem} (h : Same m' q m p n) : bytesAt m' q n = bytesAt m p n :=
  List.map_congr_left fun k hk => h k (List.mem_range.mp hk)

theorem oldTxProp_congr (h : Same m' p m p oldTxSize) : oldTxProp m' p = oldTxProp m p := by
  unfold oldTxProp
  congr 1
  · exact rd32_congr (h.mono (by decide))
  · exact bytesAt_congr (h.sub (by decide))
  · exact rd32_congr (h.sub (by decide))
  · exact rd32_congr (h.sub (by decide))
  · exact bytesAt_congr (h.sub (by decide))
  · exact rd32_congr (h.sub (by decide))

theorem oldRxProp_congr (h : Same m' p m p oldRxSize) : oldRxProp m' p = oldRxProp m p := by
  unfold oldRxProp
  congr 1
  · exact rd32_congr (h.mono (by decide))
  · exact bytesAt_congr (h.sub (by decide))
  · exact rd32_congr (h.sub (by decide))
  · exact rd32_congr (h.sub (by decide))

-- ---------------------------------------------------------------------------
-- One record
-- ---------------------------------------------------------------------------

/-- Byte `k` of the new record, from the bytes `f` of the old one: `ip` and the
old attributes, the attributes only the new header has, and from `D` on the
members behind them. -/
def widenImage (D : Nat) (f : Nat → UInt8) (k : Nat) : UInt8 :=
  if k < oldTxDst then f k else if k < D then 0 else f (oldTxDst + (k - D))

theorem TxLayout.Packed.offsets {L : TxLayout} (hL : L.Packed) (hS : oldTxSize ≤ L.size) :
    L.ip = 0 ∧ L.attrib = 4 ∧ 156 ≤ L.dstPipe ∧ L.altDstPipe = L.dstPipe + 4 ∧
      L.hdrName = L.dstPipe + 8 ∧ L.hdrL2Type = L.dstPipe + 40 ∧ L.size = L.dstPipe + 44 := by
  obtain ⟨h1, h2, h3, h4, h5, h6, h7⟩ := hL
  simp only [oldTxSize, ipaResourceNameMax] at *
  omega

theorem RxLayout.Packed.offsets {L : RxLayout} (hL : L.Packed) (hS : oldRxSize ≤ L.size) :
    L.ip = 0 ∧ L.attrib = 4 ∧ 156 ≤ L.srcPipe ∧ L.hdrL2Type = L.srcPipe + 4 ∧
      L.size = L.srcPipe + 8 := by
  obtain ⟨h1, h2, h3, h4, h5⟩ := hL
  simp only [oldRxSize] at *
  omega

theorem txWiden_apply {L : TxLayout} (hL : L.Packed) (hS : oldTxSize ≤ L.size) (base i : Nat) (t : Mem)
    (a : Nat) : txWiden L base i t a =
      if In (base + i * L.size) L.size a then
        widenImage L.dstPipe (fun j => t (base + i * oldTxSize + j)) (a - (base + i * L.size))
      else t a := by
  obtain ⟨h1, h2, h3, h4, h5, h6, h7⟩ := hL.offsets hS
  have hmin : min oldAttrSize (L.dstPipe - 4) = 152 := by simp only [oldAttrSize]; omega
  simp only [txWiden, widenImage, memPut_apply, memZero_apply, In, hmin, h1, h2, h4, h5, h6, oldTxDst, oldTxAlt,
    oldTxHdr, oldTxL2, ipaResourceNameMax]
  generalize base + i * oldTxSize = o
  generalize base + i * L.size = p
  split_ifs <;> grind

theorem rxWiden_apply {L : RxLayout} (hL : L.Packed) (hS : oldRxSize ≤ L.size) (base i : Nat) (t : Mem)
    (a : Nat) : rxWiden L base i t a =
      if In (base + i * L.size) L.size a then
        widenImage L.srcPipe (fun j => t (base + i * oldRxSize + j)) (a - (base + i * L.size))
      else t a := by
  obtain ⟨h1, h2, h3, h4, h5⟩ := hL.offsets hS
  have hmin : min oldAttrSize (L.srcPipe - 4) = 152 := by simp only [oldAttrSize]; omega
  simp only [rxWiden, widenImage, memPut_apply, memZero_apply, In, hmin, h1, h2, h4, oldTxDst, oldRxSrc,
    oldRxL2]
  generalize base + i * oldRxSize = o
  generalize base + i * L.size = p
  split_ifs <;> grind

def Widened (D T : Nat) (m' : Mem) (p : Nat) (m : Mem) (o : Nat) : Prop :=
  ∀ k, k < T → m' (p + k) = widenImage D (fun j => m (o + j)) k

theorem Widened.front (h : Widened D T m' p m o) (ha : a + n ≤ oldTxDst) (hT : oldTxDst ≤ T) :
    Same m' (p + a) m (o + a) n := by
  intro k hk
  rw [Nat.add_assoc, h (a + k) (by omega), widenImage, if_pos (by omega), Nat.add_assoc]

theorem Widened.back (h : Widened D T m' p m o) (hD : oldTxDst ≤ D) (ha : D + a + n ≤ T) :
    Same m' (p + (D + a)) m (o + (oldTxDst + a)) n := by
  intro k hk
  rw [Nat.add_assoc, h (D + a + k) (by omega), widenImage, if_neg (by omega), if_neg (by omega)]
  refine congrArg m ?_
  omega

theorem Widened.gap (h : Widened D T m' p m o) (hk : oldTxDst ≤ k) (hD : k < D) (hT : k < T) :
    m' (p + k) = 0 := by
  rw [h k hT, widenImage, if_neg (by omega), if_pos hD]

theorem Widened.txProp {L : TxLayout} (hL : L.Packed) (hS : oldTxSize ≤ L.size)
    (h : Widened L.dstPipe L.size m' p m o) : newTxProp L m' p = oldTxProp m o := by
  obtain ⟨h1, h2, h3, h4, h5, h6, h7⟩ := hL.offsets hS
  have hT : oldTxDst ≤ L.size := by simp only [oldTxDst]; omega
  have hback : ∀ a n, a + n ≤ 44 → Same m' (p + (L.dstPipe + a)) m (o + (oldTxDst + a)) n :=
    fun a n ha => h.back h3 (by omega)
  unfold newTxProp oldTxProp
  rw [h1, h2, h4, h5, h6]
  congr 1
  · exact rd32_congr (h.front (by decide) hT)
  · exact bytesAt_congr (h.front (by decide) hT)
  · exact rd32_congr (hback 0 4 (by omega))
  · exact rd32_congr (hback 4 4 (by omega))
  · exact bytesAt_congr (hback 8 ipaResourceNameMax (by decide))
  · exact rd32_congr (hback 40 4 (by omega))

theorem Widened.rxProp {L : RxLayout} (hL : L.Packed) (hS : oldRxSize ≤ L.size)
    (h : Widened L.srcPipe L.size m' p m o) : newRxProp L m' p = oldRxProp m o := by
  obtain ⟨h1, h2, h3, h4, h5⟩ := hL.offsets hS
  have hT : oldTxDst ≤ L.size := by simp only [oldTxDst]; omega
  unfold newRxProp oldRxProp
  rw [h1, h2, h4]
  congr 1
  · exact rd32_congr (h.front (by decide) hT)
  · exact bytesAt_congr (h.front (by decide) hT)
  · exact rd32_congr (h.back (a := 0) h3 (by omega))
  · exact rd32_congr (h.back (a := 4) h3 (by omega))

theorem newTxProp_congr {L : TxLayout} (hL : L.Packed) (hS : oldTxSize ≤ L.size) (h : Same m' p m p L.size) :
    newTxProp L m' p = newTxProp L m p := by
  obtain ⟨h1, h2, h3, h4, h5, h6, h7⟩ := hL.offsets hS
  unfold newTxProp
  rw [h1, h2, h4, h5, h6]
  congr 1
  · exact rd32_congr (h.mono (by omega))
  · exact bytesAt_congr (h.sub (by simp only [oldAttrSize]; omega))
  · exact rd32_congr (h.sub (by omega))
  · exact rd32_congr (h.sub (by omega))
  · exact bytesAt_congr (h.sub (by simp only [ipaResourceNameMax]; omega))
  · exact rd32_congr (h.sub (by omega))

theorem newRxProp_congr {L : RxLayout} (hL : L.Packed) (hS : oldRxSize ≤ L.size) (h : Same m' p m p L.size) :
    newRxProp L m' p = newRxProp L m p := by
  obtain ⟨h1, h2, h3, h4, h5⟩ := hL.offsets hS
  unfold newRxProp
  rw [h1, h2, h4]
  congr 1
  · exact rd32_congr (h.mono (by omega))
  · exact bytesAt_congr (h.sub (by simp only [oldAttrSize]; omega))
  · exact rd32_congr (h.sub (by omega))
  · exact rd32_congr (h.sub (by omega))

-- ---------------------------------------------------------------------------
-- All records
-- ---------------------------------------------------------------------------

theorem widenImage_congr {D S T : Nat} {f g : Nat → UInt8} (hT : T = D + (S - oldTxDst)) (hS : oldTxDst ≤ S)
    (h : ∀ j, j < S → f j = g j) (hk : k < T) : widenImage D f k = widenImage D g k := by
  unfold widenImage
  split
  · exact h k (by omega)
  · split
    · rfl
    · exact h _ (by omega)

theorem widen_loop {body : Nat → Mem → Mem} {D S T base : Nat} (hD : oldTxDst ≤ D) (hS : oldTxDst ≤ S)
    (hT : T = D + (S - oldTxDst))
    (hbody : ∀ i t a, body i t a = if In (base + i * T) T a then
      widenImage D (fun j => t (base + i * S + j)) (a - (base + i * T)) else t a) (n : Nat) (m : Mem) :
    (∀ i, i < n → Widened D T (forRange n (fun j => body (n - 1 - j)) m) (base + i * T) m (base + i * S)) ∧
      ∀ a, ¬ In base (n * T) a → forRange n (fun j => body (n - 1 - j)) m a = m a := by
  have hloop := forRange_backward body base S T n (by omega) m
    (fun i t a ha => by rw [hbody, if_neg ha]) fun i t t' h a ha => by
      rw [hbody, hbody, if_pos ha, if_pos ha]
      unfold In at ha
      exact widenImage_congr hT hS (fun j hj => h _ ⟨by omega, by omega⟩) (by omega)
  refine ⟨fun i hi k hk => ?_, hloop.2⟩
  have ha : In (base + i * T) T (base + i * T + k) := ⟨by omega, by omega⟩
  rw [hloop.1 i _ hi ha, hbody, if_pos ha, Nat.add_sub_cancel_left]

theorem translateTx_widened {L : TxLayout} (hL : L.Packed) (hS : oldTxSize ≤ L.size) (q : Nat) (m : Mem) :
    (∀ i, i < rd32 m (q + 32) → Widened L.dstPipe L.size (translateTx02300ToNew L q m)
      (q + queryPrefixSize + i * L.size) m (q + queryPrefixSize + i * oldTxSize)) ∧
    ∀ a, ¬ In (q + queryPrefixSize) (rd32 m (q + 32) * L.size) a → translateTx02300ToNew L q m a = m a := by
  obtain ⟨-, -, h3, -, -, -, h7⟩ := hL.offsets hS
  exact widen_loop (S := oldTxSize) h3 (by decide) h7 (txWiden_apply hL hS _) (rd32 m (q + 32)) m

theorem translateRx_widened {L : RxLayout} (hL : L.Packed) (hS : oldRxSize ≤ L.size) (q : Nat) (m : Mem) :
    (∀ i, i < rd32 m (q + 32) → Widened L.srcPipe L.size (translateRx02300ToNew L q m)
      (q + queryPrefixSize + i * L.size) m (q + queryPrefixSize + i * oldRxSize)) ∧
    ∀ a, ¬ In (q + queryPrefixSize) (rd32 m (q + 32) * L.size) a → translateRx02300ToNew L q m a = m a := by
  obtain ⟨-, -, h3, -, h5⟩ := hL.offsets hS
  exact widen_loop (S := oldRxSize) h3 (by decide) h5 (rxWiden_apply hL hS _) (rd32 m (q + 32)) m

-- ---------------------------------------------------------------------------
-- Nothing is lost
-- ---------------------------------------------------------------------------

/-- `m₂` holds the same answer at `q` as `m`: the same count, and the same bytes
in the `n * T` bytes of the records. -/
structure SameAnswer (T q : Nat) (m₂ m : Mem) : Prop where
  count : rd32 m₂ (q + 32) = rd32 m (q + 32)
  records : ∀ a, In (q + queryPrefixSize) (rd32 m (q + 32) * T) a → m₂ a = m a

/-- What widening the answer at `q` from records of `S` bytes to records of `T`
promises. `D` is where the new attribute block ends. -/
structure Lossless (S T D : Nat) (translate : Mem → Mem) (oldProp newProp : Mem → Nat → α)
    (oldScore newScore : Mem → Nat → Nat → Nat) (q : Nat) (m : Mem) : Prop where
  records : ∀ i, i < rd32 m (q + 32) →
    newProp (translate m) (q + queryPrefixSize + i * T) = oldProp m (q + queryPrefixSize + i * S)
  fresh : ∀ i k, i < rd32 m (q + 32) → 4 + oldAttrSize ≤ k → k < D →
    translate m (q + queryPrefixSize + i * T + k) = 0
  name : bytesAt (translate m) q ipaResourceNameMax = bytesAt m q ipaResourceNameMax
  count : rd32 (translate m) (q + 32) = rd32 m (q + 32)
  writes : ∀ a, ¬ In (q + queryPrefixSize) (rd32 m (q + 32) * T) a → translate m a = m a
  reads : ∀ m₂, SameAnswer T q m₂ m →
    ∀ a, In (q + queryPrefixSize) (rd32 m (q + 32) * T) a → translate m₂ a = translate m a
  scoreReads : ∀ m₂, SameAnswer T q m₂ m →
    oldScore m₂ q (rd32 m (q + 32)) = oldScore m q (rd32 m (q + 32)) ∧
      newScore m₂ q (rd32 m (q + 32)) = newScore m q (rd32 m (q + 32))

section
variable {S T D q : Nat} {m m₂ : Mem}

theorem SameAnswer.record (h : SameAnswer T q m₂ m) (hi : i < rd32 m (q + 32)) :
    Same m₂ (q + queryPrefixSize + i * T) m (q + queryPrefixSize + i * T) T := by
  intro k hk
  have hle := stride_le (S := T) hi
  exact h.records _ ⟨by omega, by omega⟩

theorem SameAnswer.oldRecord (h : SameAnswer T q m₂ m) (hST : S ≤ T) (hi : i < rd32 m (q + 32)) :
    Same m₂ (q + queryPrefixSize + i * S) m (q + queryPrefixSize + i * S) S := by
  intro k hk
  have hle := stride_le (S := T) hi
  have hmul : i * S ≤ i * T := Nat.mul_le_mul_left i hST
  exact h.records _ ⟨by omega, by omega⟩

theorem Lossless.of_widened {translate : Mem → Mem} {oldProp newProp : Mem → Nat → α}
    {oldScore newScore : Mem → Nat → Nat → Nat} (hST : S ≤ T) (hS : oldTxDst ≤ S)
    (hT : T = D + (S - oldTxDst))
    (hw : ∀ m, (∀ i, i < rd32 m (q + 32) → Widened D T (translate m) (q + queryPrefixSize + i * T) m
        (q + queryPrefixSize + i * S)) ∧
      ∀ a, ¬ In (q + queryPrefixSize) (rd32 m (q + 32) * T) a → translate m a = m a)
    (hprop : ∀ m' p o, Widened D T m' p m o → newProp m' p = oldProp m o)
    (hscore : ∀ m₂, SameAnswer T q m₂ m → oldScore m₂ q (rd32 m (q + 32)) = oldScore m q (rd32 m (q + 32)) ∧
      newScore m₂ q (rd32 m (q + 32)) = newScore m q (rd32 m (q + 32))) :
    Lossless S T D translate oldProp newProp oldScore newScore q m := by
  have hhead : Same (translate m) q m q queryPrefixSize := fun k hk =>
    (hw m).2 _ (by simp only [In, queryPrefixSize] at hk ⊢; omega)
  refine ⟨fun i hi => hprop _ _ _ ((hw m).1 i hi), fun i k hi hk hD => ?_, bytesAt_congr (hhead.mono (by decide)),
    rd32_congr (hhead.sub (by decide)), (hw m).2, fun m₂ h a ha => ?_, hscore⟩
  · exact ((hw m).1 i hi).gap hk hD (by omega)
  · obtain ⟨i, hi, hlo, hhi⟩ := in_stride ha
    obtain ⟨k, rfl⟩ := Nat.exists_eq_add_of_le hlo
    have hk : k < T := by omega
    rw [(hw m₂).1 i (h.count ▸ hi) k hk, (hw m).1 i hi k hk]
    exact widenImage_congr hT hS (h.oldRecord hST hi) hk

end

/-- Widening in place is lossless for every header whose records are at least
as long as the old ones, for TX and RX answers alike. -/
theorem query_widening_lossless (U : Uapi) (hU : U.Wider) (q : Nat) (m : Mem) :
    Lossless oldTxSize U.tx.size U.tx.dstPipe (translateTx02300ToNew U.tx q) oldTxProp (newTxProp U.tx)
      oldTxScore (newTxScore U.tx) q m ∧
    Lossless oldRxSize U.rx.size U.rx.srcPipe (translateRx02300ToNew U.rx q) oldRxProp (newRxProp U.rx)
      oldRxScore (newRxScore U.rx) q m := by
  obtain ⟨htx, hrx, htxSize, hrxSize⟩ := hU
  constructor
  · obtain ⟨-, -, -, -, -, -, hT⟩ := htx.offsets htxSize
    refine Lossless.of_widened htxSize (by decide) hT (translateTx_widened htx htxSize q)
      (fun m' p o h => h.txProp htx htxSize) fun m₂ h => ⟨?_, ?_⟩
    · rw [oldTxScore_eq, oldTxScore_eq]
      exact scoreAll_congr fun i hi => by rw [oldTxAt, oldTxAt, oldTxProp_congr (h.oldRecord htxSize hi)]
    · rw [newTxScore_eq htx, newTxScore_eq htx]
      exact scoreAll_congr fun i hi => by rw [newTxAt, newTxAt, newTxProp_congr htx htxSize (h.record hi)]
  · obtain ⟨-, -, -, -, hT⟩ := hrx.offsets hrxSize
    refine Lossless.of_widened hrxSize (by decide) hT (translateRx_widened hrx hrxSize q)
      (fun m' p o h => h.rxProp hrx hrxSize) fun m₂ h => ⟨?_, ?_⟩
    · rw [oldRxScore_eq, oldRxScore_eq]
      exact scoreAll_congr fun i hi => by rw [oldRxAt, oldRxAt, oldRxProp_congr (h.oldRecord hrxSize hi)]
    · rw [newRxScore_eq hrx, newRxScore_eq hrx]
      exact scoreAll_congr fun i hi => by rw [newRxAt, newRxAt, newRxProp_congr hrx hrxSize (h.record hi)]

def twoRecords : Mem := fun a => if a = 1032 then 2 else if a = 1033 ∨ a = 1034 ∨ a = 1035 then 0 else 7

theorem query_widening_lossless_two :
    rd32 twoRecords (1000 + 32) = 2 ∧
    Lossless oldTxSize 212 168 (translateTx02300ToNew uapi13900.tx 1000) oldTxProp (newTxProp uapi13900.tx)
      oldTxScore (newTxScore uapi13900.tx) 1000 twoRecords ∧
    Lossless oldRxSize 176 168 (translateRx02300ToNew uapi13900.rx 1000) oldRxProp (newRxProp uapi13900.rx)
      oldRxScore (newRxScore uapi13900.rx) 1000 twoRecords :=
  ⟨by decide, query_widening_lossless uapi13900 uapi13900_wider 1000 twoRecords⟩

end IpaOffload.Bridge
