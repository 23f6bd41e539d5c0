import IpaOffload.Ioss.RingParts
import Mathlib.Data.List.FinRange

/-!
# The rings of a device over their requests and releases

Requests and releases in any order, over the rings of the library and the heap
they share. A step that follows a NULL pointer or runs past a table is the last
one.
-/

namespace IpaOffload.Ioss

open Fallible Runs Function

-- ---------------------------------------------------------------------------
-- Requests and releases
-- ---------------------------------------------------------------------------

inductive RingDir
  | rx
  | tx
  deriving DecidableEq, Repr

def RingDir.rings : RingDir → List LibRing
  | .tx => (List.finRange 2).map .tx
  | .rx => (List.finRange 4).map .rx

def LibRing.queueNum : LibRing → Nat
  | .tx queue => queue
  | .rx queue => queue

/-- What a request asks for, and what it finds: the answer of `kzalloc` and the
size of a descriptor. -/
structure RingRequest where
  dir : RingDir
  ringSize : Nat
  buffSize : Nat
  contig : Bool
  table : Bool
  descLength : Nat

structure LibRings where
  allocated : LibRing → Bool
  mem : LibRing → RingMem
  heap : DmaHeap
  stopped : Bool

def LibRings.init : LibRings where
  allocated _ := false
  mem _ := {}
  heap := {}
  stopped := false

/-- `rtl8125_get_tx_ring` and `rtl8125_get_rx_ring`: the first free ring that the
driver does not use itself. `own` is `num_tx_rings` and `num_rx_rings`. -/
def LibRings.getRing (own : RingDir → Nat) (s : LibRings) (dir : RingDir) : Option LibRing :=
  (dir.rings.filter (own dir ≤ ·.queueNum)).find? (!s.allocated ·)

/-- `rtl8125_request_ring`, and what it returns. Without a free ring the error
path frees the memory of NULL. -/
def LibRings.rtl8125RequestRing (alloc : Allocator) (own : RingDir → Nat) (s : LibRings) (q : RingRequest) :
    Except Oops (Option LibRing) × LibRings :=
  match s.getRing own q.dir with
  | none => (.error .nullPointer, { s with stopped := true })
  | some r =>
    let (answer, m) := exec (rtl8125RequestRingMem alloc q.table q.descLength q.ringSize q.buffSize q.contig)
      { ring := s.mem r, heap := s.heap }
    let s' := { s with mem := update s.mem r m.ring, heap := m.heap }
    match answer with
    | .ok true => (.ok (some r), { s' with allocated := update s.allocated r true })
    | .ok false => (.ok none, s')
    | .error e => (.error e, { s' with stopped := true })

/-- `rtl8125_release_ring`, less what it does once no ring is left. -/
def LibRings.rtl8125ReleaseRing (s : LibRings) (r : LibRing) : LibRings :=
  let (answer, m) := exec rtl8125FreeRingMem { ring := s.mem r, heap := s.heap }
  let s' := { s with mem := update s.mem r m.ring, heap := m.heap }
  match answer with
  | .ok _ => { s' with allocated := update s.allocated r false }
  | .error _ => { s' with stopped := true }

inductive RingAction
  | request (q : RingRequest)
  | release (r : LibRing)

def LibRings.step (alloc : Allocator) (own : RingDir → Nat) (s : LibRings) (a : RingAction) : LibRings :=
  if s.stopped then s
  else
    match a with
    | .request q => (s.rtl8125RequestRing alloc own q).2
    | .release r => s.rtl8125ReleaseRing r

-- ---------------------------------------------------------------------------
-- The blocks of all rings
-- ---------------------------------------------------------------------------

def libRings : List LibRing := RingDir.tx.rings ++ RingDir.rx.rings

theorem mem_libRings (r : LibRing) : r ∈ libRings := by
  cases r <;> simp [libRings, RingDir.rings]

theorem nodup_libRings : libRings.Nodup := by decide

def LibRings.blocksOf (s : LibRings) (rings : List LibRing) : List DmaBlock := rings.flatMap fun r => (s.mem r).blocks

theorem LibRings.blocks_perm (s : LibRings) (r : LibRing) :
    (s.blocksOf libRings).Perm ((s.mem r).blocks ++ s.blocksOf (libRings.erase r)) :=
  (List.perm_cons_erase (mem_libRings r)).flatMap_right _

theorem LibRings.blocksOf_others {s s' : LibRings} {r : LibRing} (h : ∀ r', r' ≠ r → s'.mem r' = s.mem r') :
    s'.blocksOf (libRings.erase r) = s.blocksOf (libRings.erase r) := by
  refine List.flatMap_congr fun r' hr' => ?_
  rw [h r' ((nodup_libRings.mem_erase_iff.mp hr').1)]

def RingOk (allocated : Bool) (ring : RingMem) : Prop :=
  if allocated then ring.Listed else ring.Empty

structure LibRings.Inv (s : LibRings) : Prop where
  owns : Owns (s.blocksOf libRings) s.heap
  rings : ∀ r, RingOk (s.allocated r) (s.mem r)

theorem Owns.perm_iff {B C : List DmaBlock} (h : B.Perm C) {heap : DmaHeap} : Owns B heap ↔ Owns C heap :=
  ⟨fun ho => ⟨ho.perm.trans h, ho.apart, ho.sound⟩, fun ho => ⟨ho.perm.trans h.symm, ho.apart, ho.sound⟩⟩

theorem LibRings.Inv.of_ring {s s' : LibRings} {r : LibRing} (h : s.Inv) (hmem : ∀ r', r' ≠ r → s'.mem r' = s.mem r')
    (hallocated : ∀ r', r' ≠ r → s'.allocated r' = s.allocated r')
    (howns : Owns ((s'.mem r).blocks ++ s.blocksOf (libRings.erase r)) s'.heap)
    (hok : RingOk (s'.allocated r) (s'.mem r)) : s'.Inv := by
  refine ⟨(Owns.perm_iff (s'.blocks_perm r)).mpr ?_, fun r' => ?_⟩
  · rw [blocksOf_others hmem]
    exact howns
  · by_cases hr : r' = r
    · subst hr
      exact hok
    · rw [hmem r' hr, hallocated r' hr]
      exact h.rings r'

/-- Either the run has stopped, or the invariant holds. -/
structure LibRings.Sound (s : LibRings) : Prop where
  heap : s.heap.corrupt = false
  inv : s.stopped = false → s.Inv

theorem LibRings.sound_init : init.Sound where
  heap := rfl
  inv _ := ⟨⟨.refl _, .nil, rfl⟩, fun _ => ⟨rfl, rfl⟩⟩

-- ---------------------------------------------------------------------------
-- What a step does
-- ---------------------------------------------------------------------------

theorem LibRings.getRing_free {own : RingDir → Nat} {s : LibRings} {dir : RingDir} {r : LibRing}
    (h : s.getRing own dir = some r) : r ∈ dir.rings ∧ own dir ≤ r.queueNum ∧ s.allocated r = false := by
  have hmem := List.mem_filter.mp (List.mem_of_find?_eq_some h)
  exact ⟨hmem.1, by simpa using hmem.2, by simpa using List.find?_some h⟩

/-- The descriptors, and the buffers of one block, have a size that does not wrap
around. -/
structure RingRequest.NoWrap (q : RingRequest) : Prop where
  descs : q.ringSize * q.descLength < 2 ^ 32
  bufs : q.contig = true → q.ringSize * q.buffSize < 2 ^ 32

structure Given (own : RingDir → Nat) (q : RingRequest) (r : LibRing) (ring : RingMem) : Prop where
  dir : r ∈ q.dir.rings
  queue : own q.dir ≤ r.queueNum
  sized : ring.Sized q.ringSize q.buffSize q.contig
  listed : ring.Listed
  holds : q.NoWrap → ring.Holds q.descLength

structure Granted (own : RingDir → Nat) (s : LibRings) (q : RingRequest) (r : LibRing) (s' : LibRings) : Prop
    extends Given own q r (s'.mem r) where
  free : s.allocated r = false
  allocated : s'.allocated = update s.allocated r true
  others : ∀ r', r' ≠ r → s'.mem r' = s.mem r'

def RequestEnds (alloc : Allocator) (own : RingDir → Nat) (s : LibRings) (q : RingRequest) :
    Except Oops (Option LibRing) × LibRings → Prop
  | (.ok (some r), s') => s'.Inv ∧ s'.stopped = s.stopped ∧ Granted own s q r s'
  | (.ok none, s') => s'.Inv ∧ (q.ringSize = 0 ∧ q.contig = false) ∧
    ∃ r, s'.allocated = update s.allocated r false ∧ ∀ r', r' ≠ r → s'.mem r' = s.mem r'
  | (.error e, s') => s'.heap.corrupt = false ∧ s'.stopped = true ∧
    (TableFits alloc q.ringSize q.contig → e = .nullPointer)

theorem RingMem.Listed.holds {ring : RingMem} {q : RingRequest} (h : ring.Listed)
    (hsized : ring.Sized q.ringSize q.buffSize q.contig) (hdesc : ring.descSize = mul32 q.ringSize q.descLength)
    (hfits : q.NoWrap) : ring.Holds q.descLength := by
  refine ⟨?_, h.cutInto fun hcontig => ?_⟩
  · rw [hdesc, hsized.ringSize]
    exact Nat.mod_eq_of_lt hfits.descs
  · rw [hsized.ringSize, hsized.buffSize]
    exact hfits.bufs (hsized.contig.symm.trans hcontig)

theorem RequestEnds.sound {alloc : Allocator} {own : RingDir → Nat} {s : LibRings} {q : RingRequest}
    {out : Except Oops (Option LibRing) × LibRings} (h : RequestEnds alloc own s q out) : out.2.Sound := by
  rcases out with ⟨_ | _ | r, s'⟩
  · exact ⟨h.1, fun hrun => by rw [h.2.1] at hrun; cases hrun⟩
  · exact ⟨h.1.owns.sound, fun _ => h.1⟩
  · exact ⟨h.1.owns.sound, fun _ => h.1⟩

theorem LibRings.request_ends (alloc : Allocator) (own : RingDir → Nat) {s : LibRings} (h : s.Inv) (q : RingRequest) :
    RequestEnds alloc own s q (s.rtl8125RequestRing alloc own q) := by
  unfold rtl8125RequestRing
  cases hget : s.getRing own q.dir with
  | none => exact ⟨h.owns.sound, rfl, fun _ => rfl⟩
  | some r =>
    obtain ⟨hdir, hqueue, hfree⟩ := getRing_free hget
    have hempty : (s.mem r).Empty := by simpa [RingOk, hfree] using h.rings r
    have howns : Owns (s.blocksOf (libRings.erase r)) s.heap := by
      simpa [hempty.blocks] using (Owns.perm_iff (s.blocks_perm r)).mp h.owns
    have hspec := requestRingMem_spec alloc q.table q.descLength q.ringSize q.buffSize q.contig
      { ring := s.mem r, heap := s.heap } ⟨howns, hempty⟩
    rcases hexec : exec (rtl8125RequestRingMem alloc q.table q.descLength q.ringSize q.buffSize q.contig)
      { ring := s.mem r, heap := s.heap } with ⟨answer, m⟩
    rw [hexec] at hspec
    simp only [hexec]
    have hothers : ∀ r', r' ≠ r → update s.mem r m.ring r' = s.mem r' := fun r' hr => update_of_ne hr _ _
    cases answer with
    | error e => exact ⟨hspec, rfl, fun hfits => requestRingMem_error alloc hfits howns hempty hexec⟩
    | ok ok =>
      obtain ⟨⟨hsized, hend⟩, hnull⟩ := hspec
      cases ok with
      | false =>
        obtain ⟨howns', hempty'⟩ := hend
        refine ⟨h.of_ring (r := r) hothers (fun _ _ => rfl) ?_ ?_, hnull rfl, r, ?_, hothers⟩
        · simpa [hempty'.blocks] using howns'
        · simpa [RingOk, hfree] using hempty'
        · rw [← hfree, update_eq_self]
      | true =>
        obtain ⟨howns', hlisted, hdesc⟩ := hend
        refine ⟨h.of_ring (r := r) hothers (fun r' hr => update_of_ne hr _ _) ?_ ?_, rfl, ?_⟩
        · simpa using howns'
        · simpa [RingOk] using hlisted
        · have hgiven : Given own q r m.ring := ⟨hdir, hqueue, hsized, hlisted, hlisted.holds hsized hdesc⟩
          exact ⟨by simpa using hgiven, hfree, rfl, hothers⟩

theorem LibRings.release_ends {s : LibRings} (h : s.Inv) (r : LibRing) :
    (s.rtl8125ReleaseRing r).Sound ∧
      (s.allocated r = true → (s.rtl8125ReleaseRing r).stopped = s.stopped ∧
        (s.rtl8125ReleaseRing r).allocated = update s.allocated r false) := by
  have howns := (Owns.perm_iff (s.blocks_perm r)).mp h.owns
  have hring := h.rings r
  unfold rtl8125ReleaseRing
  rcases hexec : exec rtl8125FreeRingMem { ring := s.mem r, heap := s.heap } with ⟨answer, m⟩
  have hothers : ∀ r', r' ≠ r → update s.mem r m.ring r' = s.mem r' := fun r' hr => update_of_ne hr _ _
  -- what is left if the memory was freed
  have hok : Owns (s.blocksOf (libRings.erase r)) m.heap → m.ring.Empty →
      ({ s with allocated := update s.allocated r false, mem := update s.mem r m.ring, heap := m.heap } :
        LibRings).Inv := by
    intro howns' hempty
    refine h.of_ring (r := r) hothers (fun r' hr => update_of_ne hr _ _) ?_ ?_
    · simpa [hempty.blocks] using howns'
    · simpa [RingOk] using hempty
  cases hallocated : s.allocated r with
  | true =>
    have hlisted : (s.mem r).Listed := by simpa [RingOk, hallocated] using hring
    have hspec := freeRingMem_spec (E := fun _ => False) { ring := s.mem r, heap := s.heap }
      ⟨howns, .inl hlisted.tabled, ⟨rfl, rfl, rfl⟩⟩
    rw [hexec] at hspec
    cases answer with
    | error e => exact hspec.elim
    | ok _ =>
      obtain ⟨howns', hempty, -⟩ := hspec
      exact ⟨⟨howns'.sound, fun _ => hok howns' hempty⟩, fun _ => ⟨rfl, rfl⟩⟩
  | false =>
    have hempty : (s.mem r).Empty := by simpa [RingOk, hallocated] using hring
    rw [hempty.blocks] at howns
    have hspec := freeRingMem_empty { ring := s.mem r, heap := s.heap } ⟨howns, hempty, ⟨rfl, rfl, rfl⟩⟩
    rw [hexec] at hspec
    refine ⟨?_, fun h => by cases h⟩
    cases answer with
    | error e => exact ⟨hspec.sound, fun h => by cases h⟩
    | ok _ =>
      obtain ⟨howns', hempty', -⟩ := hspec
      exact ⟨howns'.sound, fun _ => hok howns' hempty'⟩

theorem LibRings.step_stopped (alloc : Allocator) (own : RingDir → Nat) {s : LibRings} (hs : s.stopped = true)
    (a : RingAction) : s.step alloc own a = s :=
  if_pos hs

theorem LibRings.step_running (alloc : Allocator) (own : RingDir → Nat) {s : LibRings} (hs : s.stopped = false)
    (a : RingAction) :
    s.step alloc own a =
      match a with
      | .request q => (s.rtl8125RequestRing alloc own q).2
      | .release r => s.rtl8125ReleaseRing r := by
  unfold step
  rw [hs]
  rfl

theorem LibRings.step_sound (alloc : Allocator) (own : RingDir → Nat) (s : LibRings) (a : RingAction) (h : s.Sound) :
    (s.step alloc own a).Sound := by
  cases hstopped : s.stopped with
  | true => rwa [step_stopped alloc own hstopped]
  | false =>
    have hinv := h.inv hstopped
    rw [step_running alloc own hstopped]
    cases a with
    | release r => exact (release_ends hinv r).1
    | request q => exact (request_ends alloc own hinv q).sound

theorem LibRings.run_sound (alloc : Allocator) (own : RingDir → Nat) (as : List RingAction) :
    (run (step alloc own) init as).Sound :=
  run_invariant (step_sound alloc own) sound_init as

-- ---------------------------------------------------------------------------
-- What the rings in use have
-- ---------------------------------------------------------------------------

def LibRings.AllOf (p : LibRing → RingMem → Prop) (s : LibRings) : Prop :=
  ∀ r, s.allocated r = true → p r (s.mem r)

section
variable {p : LibRing → RingMem → Prop}

theorem LibRings.AllOf.of_ring {s s' : LibRings} {r : LibRing} {b : Bool} (h : s.AllOf p)
    (hmem : ∀ r', r' ≠ r → s'.mem r' = s.mem r') (hallocated : s'.allocated = update s.allocated r b)
    (hp : b = true → p r (s'.mem r)) : s'.AllOf p := by
  intro r' hr'
  rw [hallocated] at hr'
  by_cases hr : r' = r
  · subst hr
    exact hp (by simpa using hr')
  · rw [update_of_ne hr] at hr'
    rw [hmem r' hr]
    exact h r' hr'

theorem LibRings.release_frame {s : LibRings} {r : LibRing} (hrun : (s.rtl8125ReleaseRing r).stopped = false) :
    (s.rtl8125ReleaseRing r).allocated = update s.allocated r false ∧
      ∀ r', r' ≠ r → (s.rtl8125ReleaseRing r).mem r' = s.mem r' := by
  revert hrun
  unfold rtl8125ReleaseRing
  rcases exec rtl8125FreeRingMem { ring := s.mem r, heap := s.heap } with ⟨_ | _, m⟩
  · exact fun hrun => by cases hrun
  · exact fun _ => ⟨rfl, fun r' hr => update_of_ne hr _ _⟩

theorem LibRings.step_allOf (alloc : Allocator) (own : RingDir → Nat) {s : LibRings} (h : s.Inv) (hall : s.AllOf p)
    (hs : s.stopped = false) {a : RingAction}
    (ha : ∀ q, a = .request q → ∀ r ring, Given own q r ring → p r ring)
    (hrun : (s.step alloc own a).stopped = false) : (s.step alloc own a).AllOf p := by
  rw [step_running alloc own hs] at hrun ⊢
  cases a with
  | release r =>
    obtain ⟨hallocated, hmem⟩ := release_frame hrun
    exact hall.of_ring hmem hallocated fun hb => by cases hb
  | request q =>
    have hends := request_ends alloc own h q
    change (s.rtl8125RequestRing alloc own q).2.stopped = false at hrun
    change (s.rtl8125RequestRing alloc own q).2.AllOf p
    rcases hout : s.rtl8125RequestRing alloc own q with ⟨e | answer, s'⟩ <;> rw [hout] at hends
    · rw [hout] at hrun
      exact absurd (hends.2.1.symm.trans hrun) (by decide)
    cases answer with
    | none =>
      obtain ⟨-, -, r, hallocated, hmem⟩ := hends
      exact hall.of_ring hmem hallocated fun hb => by cases hb
    | some r =>
      obtain ⟨-, -, hgranted⟩ := hends
      exact hall.of_ring hgranted.others hgranted.allocated fun _ => ha q rfl r _ hgranted.toGiven

theorem LibRings.run_allOf (alloc : Allocator) (own : RingDir → Nat) {as : List RingAction}
    (has : ∀ q, .request q ∈ as → ∀ r ring, Given own q r ring → p r ring) :
    let s := run (step alloc own) init as
    s.Sound ∧ (s.stopped = false → s.AllOf p) := by
  refine run_inv (I := fun s : LibRings => s.Sound ∧ (s.stopped = false → s.AllOf p)) (C := fun _ a => a ∈ as) ?_
    ⟨sound_init, fun _ r hr => by cases hr⟩ (Meets.of_forall (fun a ha _ => ha) _)
  rintro s a ⟨hsound, hall⟩ ha
  refine ⟨step_sound alloc own s a hsound, fun hrun => ?_⟩
  cases hs : s.stopped with
  | true =>
    rw [step_stopped alloc own hs] at hrun
    exact absurd (hs.symm.trans hrun) (by decide)
  | false => exact step_allOf alloc own (hsound.inv hs) (hall hs) hs (fun q hq => has q (hq ▸ ha)) hrun

end

/-- No block is freed twice and none is lost: what is out belongs to the rings in
use, and no two blocks overlap. Each of these rings has what a request asked
for. -/
theorem rings_own_all_memory (alloc : Allocator) (own : RingDir → Nat) (as : List RingAction) :
    let s := run (LibRings.step alloc own) LibRings.init as
    s.heap.corrupt = false ∧
      (s.stopped = false →
        s.heap.live.Perm (s.blocksOf libRings) ∧ s.heap.live.Pairwise DmaBlock.Apart ∧
          ∀ r, if s.allocated r then ∃ q, .request q ∈ as ∧ Given own q r (s.mem r) else (s.mem r).Empty) := by
  intro s
  obtain ⟨hsound, hall⟩ := LibRings.run_allOf (p := fun r ring => ∃ q, .request q ∈ as ∧ Given own q r ring) alloc own
    fun q hq r ring hgiven => ⟨q, hq, hgiven⟩
  refine ⟨hsound.heap, fun hrun => ?_⟩
  have hinv := hsound.inv hrun
  refine ⟨hinv.owns.perm, hinv.owns.apart, fun r => ?_⟩
  cases hallocated : s.allocated r with
  | true => exact hall hrun r hallocated
  | false =>
    have hring := hinv.rings r
    rw [RingOk, hallocated] at hring
    exact hring

/-- A request for contiguous buffers, or for any at all, never returns NULL. What
fails on the way is freed twice, and the second time ends in the table that is
gone. -/
theorem request_ring_never_null (alloc : Allocator) (own : RingDir → Nat) (as : List RingAction) (q : RingRequest)
    (hrun : (run (LibRings.step alloc own) LibRings.init as).stopped = false)
    (hasked : q.contig = true ∨ q.ringSize ≠ 0) :
    let s := run (LibRings.step alloc own) LibRings.init as
    (s.rtl8125RequestRing alloc own q).1 = .error .nullPointer ∨
      ((s.rtl8125RequestRing alloc own q).1 = .error .pastTable ∧ ¬ TableFits alloc q.ringSize q.contig) ∨
      ∃ r, (s.rtl8125RequestRing alloc own q).1 = .ok (some r) ∧
        Granted own s q r (s.rtl8125RequestRing alloc own q).2 := by
  intro s
  have hends := LibRings.request_ends alloc own ((LibRings.run_sound alloc own as).inv hrun) q
  rcases hout : s.rtl8125RequestRing alloc own q with ⟨e | answer, s'⟩
  · rw [hout] at hends
    cases e with
    | nullPointer => exact .inl rfl
    | pastTable => exact .inr (.inl ⟨rfl, fun hfits => by cases hends.2.2 hfits⟩)
  · rw [hout] at hends
    cases answer with
    | none =>
      obtain ⟨-, ⟨hsize, hcontig⟩, -⟩ := hends
      exact absurd hasked (by simp [hsize, hcontig])
    | some r => exact .inr (.inr ⟨r, rfl, hends.2.2⟩)

def noMemory : Allocator where
  bufLength := 24
  bufLength_pos := by decide
  dma _ _ := none
  fresh _ _ _ _ h := by cases h

theorem request_ring_never_null_no_memory :
    let q : RingRequest :=
      { dir := .rx, ringSize := 4, buffSize := 2048, contig := true, table := true, descLength := 32 }
    (LibRings.init.rtl8125RequestRing noMemory (fun _ => 1) q).1 = .error .nullPointer := by
  intro q
  rcases request_ring_never_null noMemory (fun _ => 1) [] q rfl (.inl rfl) with h | ⟨-, h⟩ | ⟨r, h, -⟩
  · exact h
  · exact absurd ⟨by decide, fun _ => by decide⟩ h
  · have hnone : ((LibRings.init.rtl8125RequestRing noMemory (fun _ => 1) q).1.toOption).isNone = true := by decide
    rw [show (LibRings.init.rtl8125RequestRing noMemory (fun _ => 1) q).1 = _ from h] at hnone
    cases hnone

-- ---------------------------------------------------------------------------
-- The memory that the device is given
-- ---------------------------------------------------------------------------

theorem RingOk.cutInto {allocated : Bool} {ring : RingMem} (h : RingOk allocated ring)
    (hfits : allocated = true → ring.Fits) : CutInto ring.blocks ring.regions := by
  cases allocated with
  | true => exact RingMem.Listed.cutInto h (hfits rfl)
  | false =>
    have hempty : ring.Empty := h
    rw [hempty.blocks, hempty.regions]
    exact .nil

def LibRings.regionsOf (s : LibRings) (rings : List LibRing) : List DmaBlock := rings.flatMap fun r => (s.mem r).regions

theorem LibRings.cutInto {s : LibRings} (h : s.Inv) (hfits : ∀ r, s.allocated r = true → (s.mem r).Fits)
    (rings : List LibRing) : CutInto (s.blocksOf rings) (s.regionsOf rings) := by
  induction rings with
  | nil => exact .nil
  | cons r rings ih => exact ((h.rings r).cutInto (hfits r)).append ih

-- ---------------------------------------------------------------------------
-- Over runs
-- ---------------------------------------------------------------------------

def RingAction.Fits : RingAction → Prop
  | .request q => q.contig = true → q.ringSize * q.buffSize < 2 ^ 32
  | .release _ => True

/-- The descriptors and buffers of all rings never overlap, and are parts of
blocks that are out, where no size of contiguous buffers wraps around. -/
theorem device_memory_apart (alloc : Allocator) (own : RingDir → Nat) (as : List RingAction)
    (hfits : ∀ a ∈ as, a.Fits) (hrun : (run (LibRings.step alloc own) LibRings.init as).stopped = false) :
    let s := run (LibRings.step alloc own) LibRings.init as
    (s.regionsOf libRings).Pairwise DmaBlock.Apart ∧ ∀ p ∈ s.regionsOf libRings, ∃ b ∈ s.heap.live, p.Within b := by
  intro s
  obtain ⟨hsound, hall⟩ := LibRings.run_allOf (p := fun _ ring => ring.Fits) alloc own fun q hq r ring hgiven hcontig => by
    rw [hgiven.sized.ringSize, hgiven.sized.buffSize]
    exact hfits _ hq (hgiven.sized.contig.symm.trans hcontig)
  have hinv : s.Inv := hsound.inv hrun
  have hcut := LibRings.cutInto hinv (hall hrun) libRings
  refine ⟨hcut.apart (hinv.owns.perm.pairwise hinv.owns.apart DmaBlock.Apart.symm), fun p hp => ?_⟩
  obtain ⟨b, hb, hin⟩ := hcut.within hp
  exact ⟨b, hinv.owns.perm.symm.subset hb, hin⟩

/-- An allocator that hands out what lies above all blocks. -/
def bumpAllocator : Allocator where
  bufLength := 24
  bufLength_pos := by decide
  dma live _ :=
    let top := live.foldr (fun b top => max (b.daddr + b.size) top) 0
    some (top, top)
  fresh live size addr daddr h b hb := by
    obtain ⟨-, rfl⟩ := Prod.mk.inj (Option.some.inj h)
    right
    clear h
    induction live with
    | nil => cases hb
    | cons c live ih =>
      rcases List.mem_cons.mp hb with rfl | hb
      · exact Nat.le_max_left _ _
      · exact Nat.le_trans (ih hb) (Nat.le_max_right _ _)

theorem device_memory_apart_two_rings :
    let ask (dir : RingDir) : RingAction :=
      .request { dir, ringSize := 4, buffSize := 2048, contig := true, table := true, descLength := 32 }
    let s := run (LibRings.step bumpAllocator fun _ => 1) LibRings.init [ask .rx, ask .tx]
    s.stopped = false ∧ (s.regionsOf libRings).length = 10 ∧ (s.regionsOf libRings).Pairwise DmaBlock.Apart := by
  intro ask s
  have hfits : ∀ a ∈ [ask .rx, ask .tx], a.Fits := by
    intro a ha
    simp only [List.mem_cons, List.not_mem_nil, or_false] at ha
    rcases ha with rfl | rfl <;> exact fun _ => by decide
  have hrun : s.stopped = false := by decide
  exact ⟨hrun, by decide, (device_memory_apart bumpAllocator (fun _ => 1) _ hfits hrun).1⟩

end IpaOffload.Ioss
