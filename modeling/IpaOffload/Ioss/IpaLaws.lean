import IpaOffload.Ioss.Ipa
import Mathlib.Data.List.Forall2

/-!
# The descriptions of the channels

A channel that has been described has the address of its ring and one entry a
buffer, all of them remapped and at or below the ceiling (`Describes`);
`fillPipeInfo_cases` and `Registers` have all the ways in which describing one
channel and registering them all may go. When IPA is called, every channel is
described.
-/

namespace IpaOffload.Ioss

open DeviceTree Fallible

variable {w : Nat} {p : IpaParams} {m : Platform w} {ch : IpaChannel w}

def entryOf (p : IpaParams) (m : Platform w) (ch : IpaChannel w) (mem : Mem w) : BuffMap w :=
  { iova := remapIova p mem.daddr (buffPaOf m ch mem), pa := buffPaOf m ch mem }

structure Mappable (p : IpaParams) (m : Platform w) (ch : IpaChannel w) (mem : Mem w) : Prop where
  pa : buffPaOf m ch mem ≠ 0
  iova : (entryOf p m ch mem).iova ≤ dmaAddr w p.iovaCeiling

theorem buildBuffList_ok {mems : List (Mem w)} {size idx : Nat} {entries : List (BuffMap w)} (hidx : idx ≤ size) :
    buildBuffList p m ch size idx mems = .ok entries ↔
      entries = mems.map (entryOf p m ch) ∧ idx + mems.length ≤ size ∧ ∀ mem ∈ mems, Mappable p m ch mem := by
  induction mems generalizing idx entries with
  | nil => simp [buildBuffList, hidx, eq_comm]
  | cons mem mems ih =>
    unfold buildBuffList
    rw [List.forall_mem_cons, List.length_cons]
    by_cases hsize : idx ≥ size
    · rw [if_pos hsize]
      refine ⟨nofun, ?_⟩
      rintro ⟨-, hroom, -⟩
      omega
    rw [if_neg hsize]
    by_cases hpa : buffPaOf m ch mem = 0
    · simp only [hpa, ↓reduceIte]
      exact ⟨nofun, fun h => absurd hpa h.2.2.1.pa⟩
    by_cases hiova : remapIova p mem.daddr (buffPaOf m ch mem) > dmaAddr w p.iovaCeiling
    · simp only [hpa, hiova, ↓reduceIte]
      exact ⟨nofun, fun h => absurd hiova (BitVec.not_lt.mpr h.2.2.1.iova)⟩
    simp only [hpa, hiova, ↓reduceIte, bind_eq_ok, ih (Nat.lt_of_not_le hsize)]
    constructor
    · rintro ⟨rest, ⟨rfl, hroom, hall⟩, heq⟩
      cases heq
      exact ⟨rfl, by omega, ⟨hpa, BitVec.not_lt.mp hiova⟩, hall⟩
    · rintro ⟨rfl, hroom, -, hall⟩
      exact ⟨_, ⟨rfl, by omega, hall⟩, rfl⟩

def describe (p : IpaParams) (m : Platform w) (ch : IpaChannel w) (desc : Mem w) (id : Nat) (pi : PipeInfo w) :
    PipeInfo w :=
  { pi with
    dir := ch.direction
    isTransferRingValid := true
    transferRingBase := remapIova p desc.daddr (ch.descPa desc)
    transferRingSize := .ofNat desc.size
    dataBuffList := some { id, entries := ch.buffMem.map (entryOf p m ch) }
    dataBuffListSize := .ofNat (ch.buffMem.map (entryOf p m ch)).length
    fixBufferSize := ch.buffSize }

/-- What it takes to describe a channel. `alloc` is the allocation that its
buffer list is to be. -/
structure Buildable (p : IpaParams) (m : Platform w) (ch : IpaChannel w) (alloc : Nat) (desc : Mem w) : Prop where
  head : ch.descMem.head? = some desc
  descPa : ch.descPa desc ≠ 0
  descIova : remapIova p desc.daddr (ch.descPa desc) ≤ dmaAddr w p.iovaCeiling
  list : m.kcalloc alloc = true
  room : ch.buffMem.length ≤ ch.ringSize.toNat
  buffs : ∀ mem ∈ ch.buffMem, Mappable p m ch mem

/-- The description is that of the channel, and no address in it is too high. -/
inductive Describes (p : IpaParams) (m : Platform w) (ch : IpaChannel w) : PipeInfo w → Prop
  | mk (desc : Mem w) (id : Nat) (pi : PipeInfo w) (h : Buildable p m ch id desc) :
      Describes p m ch (describe p m ch desc id pi)

theorem exec_setPipe (i : Nat) (f : PipeInfo w → PipeInfo w) (s : IpaState w) :
    exec (setPipe i f) s = (.ok (), { s with pipes := s.pipes.modify i f }) := rfl

theorem exec_kcallocList (s : IpaState w) :
    exec (kcallocList m) s =
      (.ok (if m.kcalloc s.allocs then some s.allocs else none), { s with allocs := s.allocs + 1 }) := rfl

def filled (p : IpaParams) (m : Platform w) (i : Nat) (ch : IpaChannel w) (desc : Mem w) (s : IpaState w) : IpaState w :=
  { s with pipes := s.pipes.modify i (describe p m ch desc s.allocs), allocs := s.allocs + 1 }

theorem filled_getElem? {i : Nat} {s : IpaState w} (desc : Mem w) (hi : i < s.pipes.length) :
    (filled p m i ch desc s).pipes[i]? = some (describe p m ch desc s.allocs s.pipes[i]) := by
  simp [filled, List.getElem?_eq_getElem hi]

/-- A channel that can be described is; then the HAL may still refuse it. -/
theorem exec_fillPipeInfo {i : Nat} {desc : Mem w} {s : IpaState w} (h : Buildable p m ch s.allocs desc) :
    exec (iossIpaFillPipeInfo p m i ch) s =
      if m.halFillSi ch then (.ok (), filled p m i ch desc s)
      else (.error .inval, { filled p m i ch desc s with freed := s.freed ++ [s.allocs] }) := by
  obtain ⟨rest, hdesc⟩ := List.head?_eq_some_iff.mp h.head
  have hbuild := (buildBuffList_ok (Nat.zero_le _)).mpr ⟨rfl, by simpa using h.room, h.buffs⟩
  unfold iossIpaFillPipeInfo
  rw [exec_bind_of_ok (exec_setPipe _ _ _), hdesc]
  dsimp only
  rw [exec_bind_of_ok (exec_setPipe _ _ _), if_neg h.descPa, if_neg (BitVec.not_lt.mpr h.descIova),
    exec_bind_of_ok (exec_setPipe _ _ _), exec_bind_of_ok (exec_kcallocList _)]
  simp only [h.list, ↓reduceIte]
  rw [exec_bind_of_ok (exec_setPipe _ _ _)]
  unfold fillBuffers
  rw [hbuild]
  dsimp only
  rw [exec_bind_of_ok (exec_setPipe _ _ _)]
  simp only [List.modify_modify_eq]
  cases m.halFillSi ch <;> rfl

def allocated (m : Platform w) (s s' : IpaState w) : List Nat :=
  (List.range' s.allocs (s'.allocs - s.allocs)).filter m.kcalloc

/-- A channel could not be described: what was allocated for it is freed, and its
description has no list but one it had before. -/
structure FillFails (m : Platform w) (i : Nat) (s s' : IpaState w) : Prop where
  pipes : ∃ g, s'.pipes = s.pipes.modify i g ∧ ∀ pi, (g pi).clientInfo = pi.clientInfo ∧
    ((g pi).dataBuffList = none ∨ s'.allocs = s.allocs ∧ (g pi).dataBuffList = pi.dataBuffList)
  freed : s'.freed = s.freed ++ allocated m s s'

section
variable {i : Nat} {s s' : IpaState w} {g : PipeInfo w → PipeInfo w}

theorem FillFails.early (hpipes : s'.pipes = s.pipes.modify i g)
    (hg : ∀ pi, (g pi).clientInfo = pi.clientInfo ∧ (g pi).dataBuffList = pi.dataBuffList)
    (hallocs : s'.allocs = s.allocs) (hfreed : s'.freed = s.freed) : FillFails m i s s' := by
  refine ⟨⟨g, hpipes, fun pi => ⟨(hg pi).1, .inr ⟨hallocs, (hg pi).2⟩⟩⟩, ?_⟩
  simp [allocated, hallocs, hfreed]

theorem FillFails.late (hpipes : s'.pipes = s.pipes.modify i g)
    (hg : ∀ pi, (g pi).clientInfo = pi.clientInfo ∧ (g pi).dataBuffList = none) (hallocs : s'.allocs = s.allocs + 1)
    (hfreed : s'.freed = s.freed ++ if m.kcalloc s.allocs then [s.allocs] else []) : FillFails m i s s' := by
  refine ⟨⟨g, hpipes, fun pi => ⟨(hg pi).1, .inl (hg pi).2⟩⟩, ?_⟩
  cases hk : m.kcalloc s.allocs <;> simp [allocated, hallocs, hfreed, hk]

end

theorem fillPipeInfo_fails {i : Nat} {s : IpaState w} (h : ∀ desc, ¬ Buildable p m ch s.allocs desc) :
    ∃ e s', exec (iossIpaFillPipeInfo p m i ch) s = (.error e, s') ∧ FillFails m i s s' := by
  unfold iossIpaFillPipeInfo
  rw [exec_bind_of_ok (exec_setPipe _ _ _)]
  cases hdesc : ch.descMem with
  | nil => exact ⟨_, _, rfl, .early rfl (fun _ => ⟨rfl, rfl⟩) rfl rfl⟩
  | cons desc rest =>
    dsimp only
    rw [exec_bind_of_ok (exec_setPipe _ _ _)]
    by_cases hpa : ch.descPa desc = 0
    · rw [if_pos hpa]
      exact ⟨_, _, rfl, .early (List.modify_modify_eq _ _ _ _) (fun _ => ⟨rfl, rfl⟩) rfl rfl⟩
    rw [if_neg hpa]
    by_cases hiova : remapIova p desc.daddr (ch.descPa desc) > dmaAddr w p.iovaCeiling
    · rw [if_pos hiova]
      exact ⟨_, _, rfl, .early (List.modify_modify_eq _ _ _ _) (fun _ => ⟨rfl, rfl⟩) rfl rfl⟩
    rw [if_neg hiova, exec_bind_of_ok (exec_setPipe _ _ _), exec_bind_of_ok (exec_kcallocList _)]
    cases hk : m.kcalloc s.allocs with
    | false =>
      simp only [Bool.false_eq_true, ↓reduceIte, List.modify_modify_eq]
      exact ⟨_, _, rfl, .late (List.modify_modify_eq _ _ _ _) (fun _ => ⟨rfl, rfl⟩) rfl (by simp [hk])⟩
    | true =>
      simp only [↓reduceIte]
      rw [exec_bind_of_ok (exec_setPipe _ _ _)]
      unfold fillBuffers
      cases hbuild : buildBuffList p m ch ch.ringSize.toNat 0 ch.buffMem with
      | ok entries =>
        obtain ⟨-, hroom, hall⟩ := (buildBuffList_ok (Nat.zero_le _)).mp hbuild
        exact absurd ⟨by simp [hdesc], hpa, BitVec.not_lt.mp hiova, hk, by omega, hall⟩ (h desc)
      | error e =>
        simp only [List.modify_modify_eq]
        exact ⟨_, _, rfl, .late (List.modify_modify_eq _ _ _ _) (fun _ => ⟨rfl, rfl⟩) rfl (by simp [hk])⟩

theorem fillPipeInfo_cases (p : IpaParams) (m : Platform w) (i : Nat) (ch : IpaChannel w) (s : IpaState w) :
    (∃ desc, Buildable p m ch s.allocs desc ∧ m.halFillSi ch = true ∧
      exec (iossIpaFillPipeInfo p m i ch) s = (.ok (), filled p m i ch desc s)) ∨
    (∃ desc, Buildable p m ch s.allocs desc ∧ m.halFillSi ch = false ∧
      exec (iossIpaFillPipeInfo p m i ch) s =
        (.error .inval, { filled p m i ch desc s with freed := s.freed ++ [s.allocs] })) ∨
    (∀ desc, ¬ Buildable p m ch s.allocs desc) ∧
      ∃ e s', exec (iossIpaFillPipeInfo p m i ch) s = (.error e, s') ∧ FillFails m i s s' := by
  by_cases hb : ∃ desc, Buildable p m ch s.allocs desc
  · obtain ⟨desc, hb⟩ := hb
    have hexec := exec_fillPipeInfo (i := i) hb
    cases hhal : m.halFillSi ch <;> rw [hhal] at hexec
    · exact .inr (.inl ⟨desc, hb, rfl, hexec⟩)
    · exact .inl ⟨desc, hb, rfl, hexec⟩
  · exact .inr (.inr ⟨not_exists.mp hb, fillPipeInfo_fails (not_exists.mp hb)⟩)

theorem iossIpaFillPipeInfo_ok {i : Nat} {s s' : IpaState w} :
    exec (iossIpaFillPipeInfo p m i ch) s = (.ok (), s') ↔
      ∃ desc, Buildable p m ch s.allocs desc ∧ m.halFillSi ch = true ∧ s' = filled p m i ch desc s := by
  constructor
  · intro h
    rcases fillPipeInfo_cases p m i ch s with
      ⟨desc, hb, hhal, hexec⟩ | ⟨desc, -, -, hexec⟩ | ⟨-, e, s₁, hexec, -⟩ <;> rw [hexec] at h <;> cases h
    exact ⟨desc, hb, hhal, rfl⟩
  · rintro ⟨desc, hb, hhal, rfl⟩
    rw [exec_fillPipeInfo hb, if_pos hhal]

theorem fillPipeInfo_error {i : Nat} {s s' : IpaState w} (h : exec (iossIpaFillPipeInfo p m i ch) s = (.error e, s')) :
    ∃ g, s'.pipes = s.pipes.modify i g ∧ ∀ pi, (g pi).clientInfo = pi.clientInfo := by
  rcases fillPipeInfo_cases p m i ch s with
    ⟨desc, -, -, hexec⟩ | ⟨desc, -, -, hexec⟩ | ⟨-, e, s₁, hexec, ⟨g, hpipes, hg⟩, -⟩ <;> rw [hexec] at h <;> cases h
  · exact ⟨_, rfl, fun _ => rfl⟩
  · exact ⟨g, hpipes, fun pi => (hg pi).1⟩

-- ---------------------------------------------------------------------------
-- All channels
-- ---------------------------------------------------------------------------

/-- The channel can be described, and the HAL takes it. -/
def Fillable (p : IpaParams) (m : Platform w) (ch : IpaChannel w) (alloc : Nat) : Prop :=
  (∃ desc, Buildable p m ch alloc desc) ∧ m.halFillSi ch = true

/-- The descriptions of channels whose lists are allocated from `alloc` on. -/
inductive Prepared (p : IpaParams) (m : Platform w) : (alloc : Nat) → List (IpaChannel w) → List (PipeInfo w) → Prop
  | nil (alloc : Nat) : Prepared p m alloc [] []
  | cons {ch : IpaChannel w} (pi : PipeInfo w) (h : Buildable p m ch alloc desc) (hhal : m.halFillSi ch = true)
      (hrest : Prepared p m (alloc + 1) chs pis) : Prepared p m alloc (ch :: chs) (describe p m ch desc alloc pi :: pis)

theorem Prepared.describes {alloc : Nat} {chs : List (IpaChannel w)} {pis : List (PipeInfo w)}
    (h : Prepared p m alloc chs pis) : List.Forall₂ (Describes p m) chs pis := by
  induction h with
  | nil => exact .nil
  | cons pi h _ _ ih => exact .cons ⟨_, _, pi, h⟩ ih

/-- A channel is linked into the client's list before and after it is described. -/
def prepare (p : IpaParams) (m : Platform w) (ch : IpaChannel w) (desc : Mem w) (alloc : Nat) (pi : PipeInfo w) :
    PipeInfo w :=
  describe p m ch desc alloc { pi with clientInfo := true, link := true }

theorem exec_fillPipes_cons {i : Nat} {desc : Mem w} {chs : List (IpaChannel w)} {s : IpaState w}
    (h : Buildable p m ch s.allocs desc) (hhal : m.halFillSi ch = true) :
    exec (fillPipes p m i (ch :: chs)) s =
      exec (fillPipes p m (i + 1) chs)
        { s with pipes := s.pipes.modify i (prepare p m ch desc s.allocs), allocs := s.allocs + 1 } := by
  rw [fillPipes, exec_bind_of_ok (exec_setPipe _ _ _)]
  have hfill := (iossIpaFillPipeInfo_ok (i := i)
    (s := { s with pipes := s.pipes.modify i fun pi => { pi with clientInfo := true } })).mpr ⟨desc, h, hhal, rfl⟩
  rw [exec_bind_of_ok hfill, exec_bind_of_ok (exec_setPipe _ _ _)]
  simp only [filled, List.modify_modify_eq]
  rfl

theorem fillPipes_cons_fails {i : Nat} {s : IpaState w} (chs : List (IpaChannel w)) (h : ¬ Fillable p m ch s.allocs)
    (hi : i < s.pipes.length) :
    ∃ e s', exec (fillPipes p m i (ch :: chs)) s = (.error e, s') ∧ ∃ pi ∈ s'.pipes, pi.clientInfo = true := by
  rw [fillPipes, exec_bind_of_ok (exec_setPipe _ _ _)]
  rcases hfill : exec (iossIpaFillPipeInfo p m i ch)
    { s with pipes := s.pipes.modify i fun pi => { pi with clientInfo := true } } with ⟨e | u, s₁⟩
  · obtain ⟨g, hpipes, hg⟩ := fillPipeInfo_error hfill
    refine ⟨e, s₁, exec_bind_of_error hfill, g { s.pipes[i] with clientInfo := true }, ?_, hg _⟩
    rw [hpipes, List.modify_modify_eq, List.modify_eq_take_cons_drop hi]
    simp
  · obtain ⟨desc, hb, hhal, -⟩ := iossIpaFillPipeInfo_ok.mp hfill
    exact absurd ⟨⟨desc, hb⟩, hhal⟩ h

theorem take_modify_succ {l : List α} {i : Nat} (h : i < l.length) (f : α → α) :
    (l.modify i f).take (i + 1) = l.take i ++ [f l[i]] := by
  have hlen : (l.take i).length = i := by simp [Nat.le_of_lt h]
  rw [List.modify_eq_take_cons_drop h, List.take_append, hlen, Nat.add_sub_cancel_left, List.take_take,
    Nat.min_eq_right (Nat.le_succ i)]
  rfl

theorem fillPipes_ok {i : Nat} {chs : List (IpaChannel w)} {s s' : IpaState w}
    (hlen : s.pipes.length = i + chs.length) (h : exec (fillPipes p m i chs) s = (.ok (), s')) :
    ∃ pis, s' = { s with pipes := s.pipes.take i ++ pis, allocs := s.allocs + chs.length } ∧
      Prepared p m s.allocs chs pis := by
  induction chs generalizing i s with
  | nil =>
    cases h
    refine ⟨[], ?_, .nil _⟩
    have hle : s'.pipes.length ≤ i := Nat.le_of_eq hlen
    rw [List.append_nil, List.take_of_length_le hle]
    rfl
  | cons ch chs ih =>
    have hi : i < s.pipes.length := by simp [hlen]
    by_cases hfill : Fillable p m ch s.allocs
    · obtain ⟨⟨desc, hb⟩, hhal⟩ := hfill
      rw [exec_fillPipes_cons hb hhal] at h
      obtain ⟨pis, rfl, hpis⟩ := ih (by simp [hlen]; omega) h
      refine ⟨prepare p m ch desc s.allocs s.pipes[i] :: pis, ?_, .cons _ hb hhal hpis⟩
      simp only [take_modify_succ hi, List.append_assoc, List.singleton_append, List.length_cons, IpaState.mk.injEq,
        true_and, and_true]
      omega
    · obtain ⟨e, s₁, hexec, -⟩ := fillPipes_cons_fails chs hfill hi
      rw [hexec] at h
      cases h

theorem fillPipes_error {i : Nat} {chs : List (IpaChannel w)} {s s' : IpaState w}
    (hlen : s.pipes.length = i + chs.length) (h : exec (fillPipes p m i chs) s = (.error e, s')) :
    (∃ pi ∈ s'.pipes, pi.clientInfo = true) ∧ ∃ k ch, chs[k]? = some ch ∧ ¬ Fillable p m ch (s.allocs + k) := by
  induction chs generalizing i s with
  | nil => cases h
  | cons ch chs ih =>
    have hi : i < s.pipes.length := by simp [hlen]
    by_cases hfill : Fillable p m ch s.allocs
    · obtain ⟨⟨desc, hb⟩, hhal⟩ := hfill
      rw [exec_fillPipes_cons hb hhal] at h
      obtain ⟨hset, k, ch', hk, hnot⟩ := ih (by simp [hlen]; omega) h
      refine ⟨hset, k + 1, ch', hk, ?_⟩
      rwa [Nat.add_right_comm] at hnot
    · obtain ⟨e', s₁, hexec, hset⟩ := fillPipes_cons_fails chs hfill hi
      rw [hexec] at h
      cases h
      exact ⟨hset, 0, ch, rfl, hfill⟩

theorem setPipe_connected (i : Nat) (f : PipeInfo w → PipeInfo w) : Keeps IpaState.connected (setPipe i f) :=
  Keeps.modify fun _ => rfl

theorem kfreeList_connected (list : Option (BuffList w)) : Keeps IpaState.connected (kfreeList list) := by
  cases list with
  | none => exact Keeps.pure ()
  | some l => exact Keeps.modify fun _ => rfl

theorem fillBuffers_connected (i : Nat) (ch : IpaChannel w) (id : Nat) :
    Keeps IpaState.connected (fillBuffers p m i ch id) := by
  unfold fillBuffers
  split
  · exact (kfreeList_connected _).bind fun _ => (setPipe_connected i _).bind fun _ => Keeps.throw _
  · refine (setPipe_connected i _).bind fun _ => Keeps.ite _ ?_ (Keeps.pure _)
    exact (kfreeList_connected _).bind fun _ => Keeps.throw _

theorem iossIpaFillPipeInfo_connected (i : Nat) (ch : IpaChannel w) :
    Keeps IpaState.connected (iossIpaFillPipeInfo p m i ch) := by
  unfold iossIpaFillPipeInfo
  refine (setPipe_connected i _).bind fun _ => ?_
  split
  · exact Keeps.throw _
  · refine (setPipe_connected i _).bind fun _ => Keeps.ite _ (Keeps.throw _) (Keeps.ite _ (Keeps.throw _) ?_)
    refine (setPipe_connected i _).bind fun _ => Keeps.bind (fun _ => rfl) fun id => ?_
    split
    · exact (setPipe_connected i _).bind fun _ => Keeps.throw _
    · exact (setPipe_connected i _).bind fun _ => fillBuffers_connected i ch _

theorem fillPipes_connected (i : Nat) (chs : List (IpaChannel w)) :
    Keeps IpaState.connected (fillPipes p m i chs) := by
  induction chs generalizing i with
  | nil => exact Keeps.pure ()
  | cons ch chs ih =>
    refine (setPipe_connected i _).bind fun _ => (iossIpaFillPipeInfo_connected i ch).bind fun _ => ?_
    exact (setPipe_connected i _).bind fun _ => ih (i + 1)

-- ---------------------------------------------------------------------------
-- Registering
-- ---------------------------------------------------------------------------

def connectPipes (p : IpaParams) (m : Platform w) (s : IpaState w) : Ipa w Unit :=
  if (iossIpaPreflightClient p s.pipes).isSome && p.preflightStrict then errIpaConnPipes
  else if p.preflightOnly then errIpaConnPipes
  else if p.skipConnPipes then errIpaConnPipes
  else do
    set { s with connected := some s.pipes }
    if !m.connPipes s.pipes then errIpaConnPipes
    else if !m.voteBw then errIpaConnPipes
    else if !m.regIntf then errIpaConnPipes

def released (s : IpaState w) : IpaState w :=
  { s with
    freed := s.freed ++ s.pipes.filterMap fun pi => pi.dataBuffList.map (·.id)
    pipes := s.pipes.map fun _ => {}
    cleared := true }

theorem exec_errIpaConnPipes (s : IpaState w) : exec errIpaConnPipes s = (.error .inval, released s) := rfl

/-- The pipes are connected, or everything is released; IPA has been called with
the descriptions or not at all. -/
theorem connectPipes_cases (p : IpaParams) (m : Platform w) (s : IpaState w) :
    exec (connectPipes p m s) s = (.ok (), { s with connected := some s.pipes }) ∨
      ∃ c, (c = s.connected ∨ c = some s.pipes) ∧
        exec (connectPipes p m s) s = (.error .inval, released { s with connected := c }) := by
  unfold connectPipes
  split
  · exact .inr ⟨s.connected, .inl rfl, exec_errIpaConnPipes s⟩
  split
  · exact .inr ⟨s.connected, .inl rfl, exec_errIpaConnPipes s⟩
  split
  · exact .inr ⟨s.connected, .inl rfl, exec_errIpaConnPipes s⟩
  rw [exec_bind_of_ok (exec_set _ _)]
  split
  · exact .inr ⟨some s.pipes, .inr rfl, exec_errIpaConnPipes _⟩
  split
  · exact .inr ⟨some s.pipes, .inr rfl, exec_errIpaConnPipes _⟩
  split
  · exact .inr ⟨some s.pipes, .inr rfl, exec_errIpaConnPipes _⟩
  · exact .inl rfl

theorem exec_iossIpaRegister (p : IpaParams) (m : Platform w) (chs : List (IpaChannel w)) (s : IpaState w) :
    exec (iossIpaRegister p m chs) s =
      if p.skipIpaRegister then (.ok (), s)
      else if !m.ctype then (.error .fault, { s with cleared := false })
      else
        match exec (fillPipes p m 0 chs) { s with cleared := false } with
        | (.error _, s₁) => (.error .inval, { s₁ with cleared := true })
        | (.ok _, s₁) => exec (connectPipes p m s₁) s₁ := by
  unfold iossIpaRegister
  cases p.skipIpaRegister with
  | true => rfl
  | false =>
    simp only [Bool.false_eq_true, ↓reduceIte]
    rw [exec_bind_of_ok (exec_modify _ _)]
    cases m.ctype with
    | false => rfl
    | true =>
      simp only [Bool.not_true, Bool.false_eq_true, ↓reduceIte]
      rw [exec_bind, exec_tryCatch]
      rcases exec (fillPipes p m 0 chs) { s with cleared := false } with ⟨e | u, s₁⟩ <;> rfl

inductive Registers (p : IpaParams) (m : Platform w) (chs : List (IpaChannel w)) (s : IpaState w) :
    Except Errno Unit → IpaState w → Prop
  | skipped : Registers p m chs s (.ok ()) s
  | unknownType (h : m.ctype = false) : Registers p m chs s (.error .fault) { s with cleared := false }
  | unfilled (s₁ : IpaState w) (hconn : s₁.connected = s.connected) (hset : ∃ pi ∈ s₁.pipes, pi.clientInfo = true)
      (hnot : ∃ k ch, chs[k]? = some ch ∧ ¬ Fillable p m ch (s.allocs + k)) :
      Registers p m chs s (.error .inval) { s₁ with cleared := true }
  | connected (pis : List (PipeInfo w)) (h : Prepared p m s.allocs chs pis) :
      Registers p m chs s (.ok ())
        { s with pipes := pis, allocs := s.allocs + chs.length, connected := some pis, cleared := false }
  | released (pis : List (PipeInfo w)) (c : Option (List (PipeInfo w))) (hctype : m.ctype = true)
      (h : Prepared p m s.allocs chs pis) (hc : c = s.connected ∨ c = some pis) :
      Registers p m chs s (.error .inval)
        (released { s with pipes := pis, allocs := s.allocs + chs.length, connected := c })

theorem iossIpaRegister_runs {chs : List (IpaChannel w)} {s s' : IpaState w} {r : Except Errno Unit}
    (hlen : s.pipes.length = chs.length) (h : exec (iossIpaRegister p m chs) s = (r, s')) :
    Registers p m chs s r s' := by
  rw [exec_iossIpaRegister] at h
  split at h
  · cases h
    exact .skipped
  cases hctype : m.ctype with
  | false =>
    rw [hctype] at h
    cases h
    exact .unknownType hctype
  | true =>
    simp only [hctype, Bool.not_true, Bool.false_eq_true, ↓reduceIte] at h
    have hkeep := fillPipes_connected (p := p) (m := m) 0 chs { s with cleared := false }
    rcases hfill : exec (fillPipes p m 0 chs) { s with cleared := false } with ⟨e | u, s₁⟩ <;> rw [hfill] at h hkeep
    · obtain ⟨hset, hnot⟩ := fillPipes_error (by simpa using hlen) hfill
      cases h
      exact .unfilled s₁ hkeep hset hnot
    · obtain ⟨pis, rfl, hpis⟩ := fillPipes_ok (by simpa using hlen) hfill
      dsimp only at h
      rcases connectPipes_cases p m _ with hok | ⟨c, hc, herr⟩
      · rw [hok] at h
        cases h
        exact .connected pis hpis
      · rw [herr] at h
        cases h
        exact .released pis c hctype hpis hc

theorem iossIpaRegister_connected {chs : List (IpaChannel w)} {s s' : IpaState w} {r : Except Errno Unit}
    {pipes : List (PipeInfo w)} (hlen : s.pipes.length = chs.length) (hnone : s.connected = none)
    (h : exec (iossIpaRegister p m chs) s = (r, s')) (hconn : s'.connected = some pipes) :
    List.Forall₂ (Describes p m) chs pipes := by
  cases iossIpaRegister_runs hlen h with
  | skipped => simp [hnone] at hconn
  | unknownType => simp [hnone] at hconn
  | unfilled s₁ hkeep => simp [hkeep, hnone] at hconn
  | connected pis hpis =>
    cases hconn
    exact hpis.describes
  | released pis c _ hpis hc =>
    rcases hc with rfl | rfl
    · simp [released, hnone] at hconn
    · cases hconn
      exact hpis.describes

end IpaOffload.Ioss
