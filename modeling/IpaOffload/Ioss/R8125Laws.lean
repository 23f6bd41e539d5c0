import IpaOffload.Lib.Triple
import IpaOffload.Ioss.R8125

/-!
# What the operations of the RTL8125 hold

`Holds rs` says that a channel has its ring, that each resource of `rs` is
held and that nothing has gone wrong. An operation that acquires, with its gate
off, adds its resource or fails without a trace; one that releases takes its
resource away.
-/

namespace IpaOffload.Ioss

open DeviceTree Fallible

variable {w : Nat} {env : R8125Env w} {r : Resource} {rs : List Resource} {E : R8125Channel w → Prop}

def Quiet (d : R8125Channel w) : Prop := d.faults = []

structure Holds (rs : List Resource) (d : R8125Channel w) : Prop where
  quiet : Quiet d
  ring : d.ring.isSome
  held : ∀ r ∈ rs, d.held r = true

theorem Holds.mono {rs' : List Resource} {d : R8125Channel w} (h : Holds rs d) (hsub : rs' ⊆ rs) : Holds rs' d :=
  ⟨h.quiet, h.ring, fun r hr => h.held r (hsub hr)⟩

theorem Holds.tail {d : R8125Channel w} (h : Holds (r :: rs) d) : Holds rs d := h.mono (List.subset_cons_self r rs)

structure R8125Env.Acquires (env : R8125Env w) : Prop where
  requestChannel : env.skipRequestChannel = false
  requestEvent : env.skipRequestEvent = false
  enableEvent : env.skipEnableEvent = false
  enableChannel : env.skipEnableChannel = false
  freeRing : env.freeRing.isSome
  bufTable : env.bufTable = true
  descAlloc : env.descAlloc.isSome
  buffAlloc : env.buffAlloc.isSome

-- ---------------------------------------------------------------------------
-- Single steps
-- ---------------------------------------------------------------------------

theorem need_spec (hr : r ∈ rs) : Triple (Holds rs) (need r) (fun _ => Holds (w := w) rs) E := by
  intro s hs
  have hexec : exec (need r) s = (.ok (), s) := by
    unfold need
    rw [exec_bind_of_ok (exec_get s), if_neg (by simp [hs.held r hr])]
    rfl
  rw [hexec]
  exact hs

theorem derefRing_spec : Triple (Holds rs) derefRing (fun _ => Holds (w := w) rs) E := by
  intro s hs
  obtain ⟨ring, hring⟩ := Option.isSome_iff_exists.mp hs.ring
  have hexec : exec derefRing s = (.ok ring, s) := by
    unfold derefRing
    rw [exec_bind_of_ok (exec_get s), hring]
    rfl
  rw [hexec]
  exact hs

theorem setRing_spec (ring : Ring w) : Triple (Holds rs) (setRing (some ring)) (fun _ => Holds rs) E :=
  .modify fun _ hs => ⟨hs.quiet, rfl, hs.held⟩

theorem acquire_spec : Triple (Holds rs) (acquire r) (fun _ => Holds (w := w) (r :: rs)) E := by
  refine .modify fun s hs => ⟨hs.quiet, hs.ring, fun r' hr' => ?_⟩
  by_cases hr : r' = r
  · rw [hr]
    exact Function.update_self ..
  · exact (Function.update_of_ne hr ..).trans (hs.held r' ((List.mem_cons.mp hr').resolve_left hr))

theorem drop_spec (hr : r ∉ rs) : Triple (Holds rs) (drop r) (fun _ => Holds (w := w) rs) E := by
  refine .modify fun s hs => ⟨hs.quiet, hs.ring, fun r' hr' => ?_⟩
  have hne : r' ≠ r := fun heq => hr (heq ▸ hr')
  exact (Function.update_of_ne hne ..).trans (hs.held r' hr')

theorem getRing_spec {k : R8125Channel w → R8125 w Unit} {Q : Unit → R8125Channel w → Prop}
    (h : ∀ a ring, a.ring = some ring → Triple (Holds rs) (k a) Q E) : Triple (Holds rs) (get >>= k) Q E := by
  intro s hs
  obtain ⟨ring, hring⟩ := Option.isSome_iff_exists.mp hs.ring
  rw [exec_bind_of_ok (exec_get s)]
  exact h s ring hring s hs

-- ---------------------------------------------------------------------------
-- Rings
-- ---------------------------------------------------------------------------

/-- A ring that is there for the asking. -/
theorem rtl8125RequestRing_spec (h : env.Acquires) (ringSize buffSize : UInt32) :
    Triple Quiet (rtl8125RequestRing env ringSize buffSize) (fun _ s => Quiet s ∧ s.held .ring = true) E := by
  obtain ⟨ring, hfree⟩ := Option.isSome_iff_exists.mp h.freeRing
  obtain ⟨desc, hdesc⟩ := Option.isSome_iff_exists.mp h.descAlloc
  obtain ⟨buff, hbuff⟩ := Option.isSome_iff_exists.mp h.buffAlloc
  have hmem : (rtl8125AllocRingMem env { ring with ringSize, buffSize }).isSome := by
    unfold rtl8125AllocRingMem
    rw [h.bufTable, hdesc, hbuff]
    rfl
  obtain ⟨ring', hring'⟩ := Option.isSome_iff_exists.mp hmem
  unfold rtl8125RequestRing
  rw [hfree]
  dsimp only
  rw [hring']
  refine .bind (Q := fun _ s => Quiet s ∧ s.held .ring = true) (.modify fun s hs => ⟨hs, ?_⟩) fun _ => .pure fun _ => id
  exact Function.update_self Resource.ring true s.held

theorem addMems_spec (i : Nat) (mems : List (Mem w)) {P : R8125Channel w → Prop}
    (hP : ∀ s mem, P s → P { s with buffMem := s.buffMem ++ [mem] }) :
    Triple P (addMems env i mems) (fun _ => P) P := by
  induction mems generalizing i with
  | nil => exact .pure fun _ => id
  | cons mem mems ih =>
    unfold addMems
    cases env.addBuffMem i with
    | some e => exact .throw fun _ => id
    | none => exact .bind (.modify fun s hs => hP s mem hs) fun _ => ih (i + 1)

theorem giveUp_spec (e : Errno) {Q : Unit → R8125Channel w → Prop} :
    Triple Quiet (do rtl8125ReleaseRing; setRing none; throw e : R8125 w Unit) Q Quiet :=
  .bind (Q := fun _ => Quiet) (.modify fun _ => id) fun _ =>
    .bind (Q := fun _ => Quiet) (.modify fun _ => id) fun _ => .throw fun _ => id

theorem requestChannel_spec (h : env.Acquires) (ch : NetChannel (R8125Channel w)) :
    Triple Quiet (r8125IossRequestChannel env ch) (fun _ => Holds [.ring]) Quiet := by
  unfold r8125IossRequestChannel
  rw [if_neg (by simp [h.requestChannel])]
  refine .bind (rtl8125RequestRing_spec h _ _) fun ring => ?_
  cases env.addDescMem with
  | some e => exact (giveUp_spec e).pre fun _ hs => hs.1
  | none =>
    refine .bind (Q := fun _ s => Quiet s ∧ s.held .ring = true) (.modify fun _ => id) fun _ => ?_
    refine .bind (Q := fun _ s => Quiet s ∧ s.held .ring = true)
      (.tryCatch (addMems_spec 0 ring.bufs fun _ _ => id) fun e => ?_) fun _ => ?_
    · exact .bind (Q := fun _ => Quiet) (.modify fun _ hs => hs.1) fun _ => giveUp_spec e
    · refine .modify fun s hs => ⟨hs.1, rfl, fun r hr => ?_⟩
      rw [List.mem_singleton.mp hr]
      exact hs.2

theorem releaseChannel_spec : Triple (Holds (.ring :: rs)) r8125IossReleaseChannel (fun _ => Quiet (w := w)) E := by
  unfold r8125IossReleaseChannel
  refine .bind (need_spec (List.mem_cons_self ..)) fun _ => .bind derefRing_spec fun ring => ?_
  refine .bind (Q := fun _ => Quiet) (.modify fun _ hs => hs.quiet) fun _ => ?_
  exact .bind (Q := fun _ => Quiet) (.modify fun _ => id) fun _ => .modify fun _ => id

theorem enableChannel_spec (h : env.Acquires) :
    Triple (Holds rs) (r8125IossEnableChannel env) (fun _ => Holds (.channel :: rs)) E := by
  unfold r8125IossEnableChannel
  rw [if_neg (by simp [h.enableChannel])]
  refine getRing_spec fun a ring hring => ?_
  rw [hring]
  exact .bind (setRing_spec _) fun _ => acquire_spec

theorem disableChannel_spec (hr : .channel ∉ rs) :
    Triple (Holds (.channel :: rs)) r8125IossDisableChannel (fun _ => Holds (w := w) rs) E := by
  unfold r8125IossDisableChannel
  refine .bind (need_spec (List.mem_cons_self ..)) fun _ => getRing_spec fun a ring hring => ?_
  rw [hring]
  exact .bind (setRing_spec _) fun _ => (drop_spec hr).pre fun _ hs => hs.tail

-- ---------------------------------------------------------------------------
-- Events
-- ---------------------------------------------------------------------------

theorem mapEvent_spec : Triple (Holds rs) (iossChannelMapEvent env) (fun _ => Holds rs) (Holds rs) := by
  unfold iossChannelMapEvent
  refine .bind .get fun a => .ite (fun _ => .throw_bind fun _ hs => hs.2) fun _ => ?_
  cases env.mapEvent with
  | none => exact .throw fun _ hs => hs.2
  | some daddr => exact .modify fun _ hs => ⟨hs.2.quiet, hs.2.ring, hs.2.held⟩

theorem unmapEvent_spec : Triple (Holds rs) iossChannelUnmapEvent (fun _ => Holds (w := w) rs) E :=
  .modify fun _ hs => ⟨hs.quiet, hs.ring, hs.held⟩

theorem rtl8125RequestEvent_spec :
    Triple (Holds rs) rtl8125RequestEvent (fun _ => Holds (w := w) (.event :: rs)) (Holds rs) := by
  unfold rtl8125RequestEvent
  refine getRing_spec fun a ring hring => ?_
  rw [hring]
  refine .ite (fun _ => .throw_bind fun _ => id) fun _ => ?_
  exact .bind (setRing_spec _) fun _ => acquire_spec

theorem requestEvent_spec (h : env.Acquires) :
    Triple (Holds rs) (r8125IossRequestEvent env) (fun _ => Holds (.event :: rs)) (Holds rs) := by
  unfold r8125IossRequestEvent
  rw [if_neg (by simp [h.requestEvent])]
  refine .bind (.tryCatch mapEvent_spec fun _ => .throw fun _ => id) fun _ => ?_
  exact .tryCatch rtl8125RequestEvent_spec fun _ => .bind unmapEvent_spec fun _ => .throw fun _ => id

theorem releaseEvent_spec (hr : .event ∉ rs) :
    Triple (Holds (.event :: rs)) r8125IossReleaseEvent (fun _ => Holds (w := w) rs) E := by
  unfold r8125IossReleaseEvent
  refine .bind (need_spec (List.mem_cons_self ..)) fun _ => .bind derefRing_spec fun ring => ?_
  refine .bind (setRing_spec _) fun _ => .bind unmapEvent_spec fun _ => ?_
  exact (drop_spec hr).pre fun _ hs => hs.tail

theorem enableEvent_spec (h : env.Acquires) (hr : .eventEnable ∉ rs) (ch : NetChannel (R8125Channel w)) :
    Triple (Holds rs) (r8125IossEnableEvent env ch) (fun _ => Holds (.eventEnable :: rs)) (Holds rs) := by
  unfold r8125IossEnableEvent
  rw [if_neg (by simp [h.enableEvent])]
  refine .bind derefRing_spec fun ring => .ite (fun _ => .throw_bind fun _ => id) fun _ => ?_
  refine .bind (setRing_spec _) fun _ => .bind acquire_spec fun _ => .ite (fun _ => ?_) fun _ => .pure fun _ => id
  refine .bind (setRing_spec _) fun _ => .bind (Q := fun _ => Holds rs) ?_ fun _ => .throw fun _ => id
  exact (drop_spec hr).pre fun _ hs => hs.tail

theorem disableEvent_spec (hr : .eventEnable ∉ rs) (ch : NetChannel (R8125Channel w)) :
    Triple (Holds (.eventEnable :: rs)) (r8125IossDisableEvent ch) (fun _ => Holds rs) (Holds rs) := by
  unfold r8125IossDisableEvent
  refine .bind (need_spec (List.mem_cons_self ..)) fun _ => .ite (fun _ => .throw_bind fun _ hs => hs.tail) fun _ => ?_
  refine .bind derefRing_spec fun ring => .ite (fun _ => .throw_bind fun _ hs => hs.tail) fun _ => ?_
  exact .bind (setRing_spec _) fun _ => (drop_spec hr).pre fun _ hs => hs.tail

end IpaOffload.Ioss
