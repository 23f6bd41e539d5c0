import IpaOffload.Lib.Runs
import Mathlib.Logic.Function.Basic

/-!
# MSI-X entries of the rings

While a ring has an event, the MSI-X entry of its message has the address and
data of IPA's doorbell. What was there before is saved in the event and
written back when the event is released. `w` is the width of `dma_addr_t`.
-/

namespace IpaOffload.Ioss

open Runs Function

-- ---------------------------------------------------------------------------
-- The table
-- ---------------------------------------------------------------------------

/-- The four words of an entry: message address, its upper half, message data,
vector control. -/
structure MsixEntry where
  addrLo : BitVec 32
  addrHi : BitVec 32
  data : BitVec 32
  control : BitVec 32
  deriving DecidableEq

/-- `lib_tx_ring` and `lib_rx_ring`, by `queue_num`. -/
inductive LibRing
  | tx (queue : Fin 2)
  | rx (queue : Fin 4)
  deriving DecidableEq, Repr

def messageId : LibRing → Nat
  | .tx queue => if queue = 0 then 16 else 18
  | .rx queue => queue

theorem messageId_inj : Injective messageId := by
  intro r r' h
  cases r with
  | tx q => cases r' with
    | tx q' => revert q q'; decide
    | rx q' => revert q q'; decide
  | rx q => cases r' with
    | tx q' => revert q q'; decide
    | rx q' => revert q q'; decide

def wide (lo hi : BitVec 32) : BitVec 64 := lo.setWidth 64 ||| hi.setWidth 64 <<< 32

def lowWord (x : BitVec 64) : BitVec 32 := x.setWidth 32

def highWord (x : BitVec 64) : BitVec 32 := (x >>> 32).setWidth 32

theorem lowWord_wide (lo hi : BitVec 32) : lowWord (wide lo hi) = lo := by
  ext i hi
  simp [lowWord, wide]

theorem highWord_wide (lo hi : BitVec 32) : highWord (wide lo hi) = hi := by
  ext i hlt
  have h1 : 32 + i < 64 := by omega
  have h2 : i < 64 := by omega
  simp [highWord, wide, h1, h2, BitVec.getLsbD_eq_getElem hlt]

-- ---------------------------------------------------------------------------
-- Events
-- ---------------------------------------------------------------------------

/-- `struct rtl8125_event`. -/
structure RingEvent (w : Nat) where
  addr : BitVec w := 0
  data : BitVec 64 := 0
  allocated : Bool := false
  messageId : Nat := 0

structure Msix (w : Nat) where
  table : Nat → MsixEntry
  event : LibRing → RingEvent w

variable {w : Nat}

def writeEntry (addr : BitVec w) (data : BitVec 64) : MsixEntry where
  addrLo := lowWord (addr.setWidth 64)
  addrHi := highWord (addr.setWidth 64)
  data := lowWord data
  control := highWord data

/-- `rtl8125_request_event` with `MSIX_event_type`. The word at 8 is read twice,
and the one at 12 not at all. -/
def Msix.rtl8125RequestEvent (s : Msix w) (r : LibRing) (addr : BitVec w) (data : BitVec 64) : Msix w :=
  if (s.event r).allocated then s
  else
    let id := messageId r
    let old := s.table id
    let event : RingEvent w :=
      { addr := (wide old.addrLo old.addrHi).setWidth w
        data := wide old.data old.data
        allocated := true
        messageId := id }
    { table := update s.table id (writeEntry addr data), event := update s.event r event }

def Msix.rtl8125ReleaseEvent (s : Msix w) (r : LibRing) : Msix w :=
  let event := s.event r
  if !event.allocated then s
  else
    { table := update s.table event.messageId (writeEntry event.addr event.data)
      event := update s.event r { event with allocated := false } }

inductive MsixAction (w : Nat)
  | request (r : LibRing) (addr : BitVec w) (data : BitVec 64)
  | release (r : LibRing)

def Msix.step (s : Msix w) : MsixAction w → Msix w
  | .request r addr data => s.rtl8125RequestEvent r addr data
  | .release r => s.rtl8125ReleaseEvent r

def Msix.init (table : Nat → MsixEntry) : Msix w where
  table := table
  event _ := {}

-- ---------------------------------------------------------------------------
-- What is written back
-- ---------------------------------------------------------------------------

def restored (w : Nat) (old : MsixEntry) : MsixEntry :=
  writeEntry ((wide old.addrLo old.addrHi).setWidth w) (wide old.data old.data)

theorem restored_words (old : MsixEntry) (hw : w = 32 ∨ w = 64) :
    restored w old =
      { addrLo := old.addrLo, addrHi := if w = 64 then old.addrHi else 0, data := old.data, control := old.data } := by
  have haddr : (wide old.addrLo old.addrHi).setWidth 32 = old.addrLo := lowWord_wide _ _
  unfold restored writeEntry
  rw [lowWord_wide old.data, highWord_wide old.data]
  rcases hw with rfl | rfl
  · rw [haddr]
    have hlow : lowWord (old.addrLo.setWidth 64) = old.addrLo := by
      ext i hlt
      simp [lowWord]
    have hhigh : highWord (old.addrLo.setWidth 64) = 0 := by
      ext i hlt
      simp [highWord]
    rw [hlow, hhigh]
    rfl
  · rw [BitVec.setWidth_eq, BitVec.setWidth_eq, lowWord_wide, highWord_wide]
    rfl

theorem restored_restored (old : MsixEntry) (hw : w = 32 ∨ w = 64) : restored w (restored w old) = restored w old := by
  rw [restored_words (restored w old) hw, restored_words old hw]
  rcases hw with rfl | rfl <;> rfl

-- ---------------------------------------------------------------------------
-- Whole runs
-- ---------------------------------------------------------------------------

/-- Every event writes back to the entry of its own ring. -/
def OwnMessages (s : Msix w) : Prop := ∀ r, (s.event r).allocated = true → (s.event r).messageId = messageId r

structure Untouched (table : Nat → MsixEntry) (r : LibRing) (s : Msix w) : Prop where
  own : OwnMessages s
  free : (s.event r).allocated = false
  entry : s.table (messageId r) = table (messageId r)

structure Touched (table : Nat → MsixEntry) (r : LibRing) (s : Msix w) : Prop where
  own : OwnMessages s
  held : (s.event r).allocated = true →
    writeEntry (s.event r).addr (s.event r).data = restored w (table (messageId r))
  free : (s.event r).allocated = false → s.table (messageId r) = restored w (table (messageId r))

theorem OwnMessages.step {s : Msix w} (h : OwnMessages s) (a : MsixAction w) : OwnMessages (s.step a) := by
  intro r halloc
  cases a with
  | request r' addr data =>
    simp only [Msix.step, Msix.rtl8125RequestEvent] at halloc ⊢
    split
    · rename_i hbusy
      rw [if_pos hbusy] at halloc
      exact h r halloc
    · rename_i hfree
      rw [if_neg hfree] at halloc
      by_cases hr : r = r'
      · subst hr
        simp
      · simp only [update_of_ne hr] at halloc ⊢
        exact h r halloc
  | release r' =>
    simp only [Msix.step, Msix.rtl8125ReleaseEvent] at halloc ⊢
    split
    · rename_i hfree
      rw [if_pos hfree] at halloc
      exact h r halloc
    · rename_i hbusy
      rw [if_neg hbusy] at halloc
      by_cases hr : r = r'
      · subst hr
        simp at halloc
      · simp only [update_of_ne hr] at halloc ⊢
        exact h r halloc

def MsixAction.ring : MsixAction w → LibRing
  | .request r _ _ => r
  | .release r => r

theorem step_other {s : Msix w} (h : OwnMessages s) {a : MsixAction w} {r : LibRing} (ha : a.ring ≠ r) :
    (s.step a).event r = s.event r ∧ (s.step a).table (messageId r) = s.table (messageId r) := by
  have hid : messageId r ≠ messageId a.ring := fun heq => ha (messageId_inj heq).symm
  cases a with
  | request r' addr data =>
    simp only [Msix.step, Msix.rtl8125RequestEvent]
    split
    · exact ⟨rfl, rfl⟩
    · exact ⟨update_of_ne (Ne.symm ha) .., update_of_ne hid ..⟩
  | release r' =>
    simp only [Msix.step, Msix.rtl8125ReleaseEvent]
    split
    · exact ⟨rfl, rfl⟩
    · rename_i hbusy
      rw [h r' (by simpa using hbusy)]
      exact ⟨update_of_ne (Ne.symm ha) .., update_of_ne hid ..⟩

theorem Untouched.step {table : Nat → MsixEntry} {r : LibRing} (s : Msix w) (a : MsixAction w)
    (h : Untouched table r s) (ha : ∀ addr data, a ≠ .request r addr data) : Untouched table r (s.step a) := by
  by_cases hr : a.ring = r
  · cases a with
    | request r' addr data =>
      obtain rfl : r' = r := hr
      exact absurd rfl (ha addr data)
    | release r' =>
      obtain rfl : r' = r := hr
      have hsame : s.step (.release r') = s := by simp [Msix.step, Msix.rtl8125ReleaseEvent, h.free]
      rw [hsame]
      exact h
  · obtain ⟨hevent, htable⟩ := step_other h.own hr
    exact ⟨h.own.step a, by rw [hevent]; exact h.free, htable.trans h.entry⟩

theorem Touched.request {table : Nat → MsixEntry} {r : LibRing} {s : Msix w} (hown : OwnMessages s)
    (hfree : (s.event r).allocated = false) (addr : BitVec w) (data : BitVec 64)
    (hentry : restored w (s.table (messageId r)) = restored w (table (messageId r))) :
    Touched table r (s.step (.request r addr data)) := by
  refine ⟨hown.step _, fun _ => ?_, fun halloc => ?_⟩
  · simp only [Msix.step, Msix.rtl8125RequestEvent, hfree, Bool.false_eq_true, if_false, update_self]
    exact hentry
  · simp [Msix.step, Msix.rtl8125RequestEvent, hfree] at halloc

theorem Touched.release {table : Nat → MsixEntry} {r : LibRing} {s : Msix w} (h : Touched table r s)
    (hheld : (s.event r).allocated = true) : Touched table r (s.step (.release r)) := by
  refine ⟨h.own.step _, fun halloc => ?_, fun _ => ?_⟩
  · simp [Msix.step, Msix.rtl8125ReleaseEvent, hheld] at halloc
  · simp only [Msix.step, Msix.rtl8125ReleaseEvent, hheld, Bool.not_true, Bool.false_eq_true, if_false,
      h.own r hheld, update_self]
    exact h.held hheld

theorem Touched.step (hw : w = 32 ∨ w = 64) {table : Nat → MsixEntry} {r : LibRing} (s : Msix w) (a : MsixAction w)
    (h : Touched table r s) : Touched table r (s.step a) := by
  by_cases hr : a.ring = r
  · cases a with
    | request r' addr data =>
      obtain rfl : r' = r := hr
      cases halloc : (s.event r').allocated with
      | true =>
        have hsame : s.step (.request r' addr data) = s := by simp [Msix.step, Msix.rtl8125RequestEvent, halloc]
        rw [hsame]
        exact h
      | false =>
        apply Touched.request h.own halloc
        rw [h.free halloc, restored_restored _ hw]
    | release r' =>
      obtain rfl : r' = r := hr
      cases halloc : (s.event r').allocated with
      | true => exact h.release halloc
      | false =>
        have hsame : s.step (.release r') = s := by simp [Msix.step, Msix.rtl8125ReleaseEvent, halloc]
        rw [hsame]
        exact h
  · obtain ⟨hevent, htable⟩ := step_other h.own hr
    refine ⟨h.own.step a, ?_, ?_⟩ <;> rw [hevent]
    · exact h.held
    · rw [htable]
      exact h.free

theorem init_untouched (table : Nat → MsixEntry) (r : LibRing) : Untouched table r (Msix.init table : Msix w) where
  own r h := by cases h
  free := rfl
  entry := rfl

theorem Untouched.request {table : Nat → MsixEntry} {r : LibRing} {s : Msix w} (h : Untouched table r s)
    (addr : BitVec w) (data : BitVec 64) : Touched table r (s.step (.request r addr data)) :=
  .request h.own h.free addr data (by rw [h.entry])

theorem step_untouched_or_touched (hw : w = 32 ∨ w = 64) {table : Nat → MsixEntry} {r : LibRing} (s : Msix w)
    (a : MsixAction w) (h : Untouched table r s ∨ Touched table r s) :
    Untouched table r (s.step a) ∨ Touched table r (s.step a) := by
  rcases h with h | h
  · by_cases hreq : ∃ addr data, a = .request r addr data
    · obtain ⟨addr, data, rfl⟩ := hreq
      exact .inr (h.request addr data)
    · refine .inl (h.step s a fun addr data heq => ?_)
      exact hreq ⟨addr, data, heq⟩
  · exact .inr (h.step hw s a)

/-- In any order of requests and releases on all rings: once ring `r` has no
event, its entry is what it was before the first one just if there was none,
or the entry's vector control was the same as its data and its address fits
into a `dma_addr_t`. -/
theorem msix_entry_restored_iff (hw : w = 32 ∨ w = 64) (table : Nat → MsixEntry) (as : List (MsixAction w))
    (r : LibRing) (hfree : ((run Msix.step (Msix.init table) as).event r).allocated = false) :
    (run Msix.step (Msix.init table) as).table (messageId r) = table (messageId r) ↔
      (∀ addr data, .request r addr data ∉ as) ∨
        (table (messageId r)).control = (table (messageId r)).data ∧
          (w = 64 ∨ (table (messageId r)).addrHi = 0) := by
  by_cases hnone : ∀ addr data, MsixAction.request r addr data ∉ as
  · have hmeets : Meets Msix.step (fun _ a => ∀ addr data, a ≠ .request r addr data) (Msix.init table) as := by
      apply Meets.of_forall
      rintro a ha s addr data rfl
      exact hnone addr data ha
    have h := run_inv Untouched.step (init_untouched table r) hmeets
    exact ⟨fun _ => .inl hnone, fun _ => h.entry⟩
  · have htouched : Touched table r (run Msix.step (Msix.init table) as) := by
      push Not at hnone
      obtain ⟨addr, data, hmem⟩ := hnone
      obtain ⟨pre, post, rfl⟩ := List.append_of_mem hmem
      rw [run_append]
      have hpre := run_invariant (step_untouched_or_touched hw) (.inl (init_untouched table r)) pre
      refine run_invariant (Touched.step hw) ?_ post
      rcases hpre with h | h
      · exact h.request addr data
      · exact h.step hw _ _
    rw [htouched.free hfree, restored_words _ hw]
    constructor
    · intro heq
      have hcontrol := congrArg MsixEntry.control heq
      have hhi := congrArg MsixEntry.addrHi heq
      refine .inr ⟨hcontrol.symm, ?_⟩
      rcases hw with rfl | rfl
      · exact .inr hhi.symm
      · exact .inl rfl
    · rintro (hno | ⟨hcontrol, hhi⟩)
      · exact absurd hno hnone
      · generalize table (messageId r) = old at hcontrol hhi
        obtain ⟨addrLo, addrHi, data, control⟩ := old
        simp only at hcontrol hhi
        subst hcontrol
        rcases hw with rfl | rfl
        · obtain rfl := hhi.resolve_left (by decide)
          rfl
        · rfl

/-- One ring's event comes and goes, with a host message of data 1 that was not
masked: the entry is masked afterwards. -/
theorem msix_entry_restored_iff_masked :
    let table : Nat → MsixEntry := fun _ => { addrLo := 0xfee00000, addrHi := 0, data := 1, control := 0 }
    let as : List (MsixAction 32) := [.request (.tx 0) 0x1000 7, .release (.tx 0)]
    (run Msix.step (Msix.init table) as).table 16 ≠ table 16 := by
  intro table as hsame
  have hiff := msix_entry_restored_iff (.inl rfl) table as (.tx 0) rfl
  rcases hiff.mp hsame with hnone | ⟨hcontrol, -⟩
  · exact hnone 0x1000 7 (by simp [as])
  · exact absurd hcontrol (by decide)

end IpaOffload.Ioss
