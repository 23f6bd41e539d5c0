import IpaOffload.Bridge.QueryLaws
import IpaOffload.Bridge.Rules

/-!
# Attributes there and back

The attribute block of an interface property reaches `ipacm` through the
widened answer, which carries all 152 bytes of it, and goes back to the kernel
inside a rule, through `attr_new_to_old`, which carries the first 148. What
the kernel gets back is what it gave only where the last four bytes are zero.
-/

namespace IpaOffload.Bridge

open ByteMem

/-- The last bytes of the old attribute block at `p`, which lie behind the part
`attr_new_to_old` copies, are zero. -/
def TailZero (m : Mem) (p : Nat) : Prop := ∀ k, attrCommonSize ≤ k → k < oldAttrSize → m (p + k) = 0

theorem attrNewToOld_same_iff {m new : Mem} {p oldp newp : Nat} (hcopy : Same new newp m p oldAttrSize)
    (hapart : Apart oldp oldAttrSize newp attrCommonSize) :
    Same (attrNewToOld oldp newp new) oldp m p oldAttrSize ↔ TailZero m p := by
  have hback : ∀ k, k < oldAttrSize →
      attrNewToOld oldp newp new (oldp + k) = if k < attrCommonSize then m (p + k) else 0 := by
    intro k hk
    have hin : In oldp oldAttrSize (oldp + k) := ⟨by omega, by omega⟩
    rw [attrNewToOld_apply oldp newp new _ hapart, if_pos hin, Nat.add_sub_cancel_left]
    by_cases hc : k < attrCommonSize
    · rw [if_pos ⟨by omega, by omega⟩, if_pos hc]
      exact hcopy k hk
    · rw [if_neg (by unfold In; omega), if_neg hc]
  constructor
  · intro h k hlo hhi
    have hsame := h k hhi
    rw [hback k hhi, if_neg (by omega)] at hsame
    exact hsame.symm
  · intro h k hk
    rw [hback k hk]
    by_cases hc : k < attrCommonSize
    · rw [if_pos hc]
    · rw [if_neg hc]
      exact (h k (by omega) hk).symm

/-- For a record `i` of the answer at `q`, `ipacm` builds a rule whose attribute
block, at `newp`, is that of the widened record; the bridge rebuilds the block
at `oldp`, in its own buffer. The kernel gets its 152 bytes back exactly when
the last four were zero. -/
theorem attr_round_trip_iff (U : Uapi) (hU : U.Wider) (q : Nat) (m : Mem) :
    (∀ i, i < rd32 m (q + 32) → ∀ (new : Mem) (newp oldp : Nat),
      Same new newp (translateTx02300ToNew U.tx q m) (q + queryPrefixSize + i * U.tx.size + U.tx.attrib)
        oldAttrSize →
      Apart oldp oldAttrSize newp attrCommonSize →
      (Same (attrNewToOld oldp newp new) oldp m (q + queryPrefixSize + i * oldTxSize + 4) oldAttrSize ↔
        TailZero m (q + queryPrefixSize + i * oldTxSize + 4))) ∧
    (∀ i, i < rd32 m (q + 32) → ∀ (new : Mem) (newp oldp : Nat),
      Same new newp (translateRx02300ToNew U.rx q m) (q + queryPrefixSize + i * U.rx.size + U.rx.attrib)
        oldAttrSize →
      Apart oldp oldAttrSize newp attrCommonSize →
      (Same (attrNewToOld oldp newp new) oldp m (q + queryPrefixSize + i * oldRxSize + 4) oldAttrSize ↔
        TailZero m (q + queryPrefixSize + i * oldRxSize + 4))) := by
  obtain ⟨htx, hrx, htxSize, hrxSize⟩ := hU
  constructor
  · intro i hi new newp oldp hcopy hapart
    have hT : oldTxDst ≤ U.tx.size := Nat.le_trans (by decide) htxSize
    have hwide := (translateTx_widened htx htxSize q m).1 i hi
    rw [htx.attrib] at hcopy
    exact attrNewToOld_same_iff (hcopy.trans (hwide.front (by decide) hT)) hapart
  · intro i hi new newp oldp hcopy hapart
    have hT : oldTxDst ≤ U.rx.size := Nat.le_trans (by decide) hrxSize
    have hwide := (translateRx_widened hrx hrxSize q m).1 i hi
    rw [hrx.attrib] at hcopy
    exact attrNewToOld_same_iff (hcopy.trans (hwide.front (by decide) hT)) hapart

def tailAnswer : Mem := fun a => if a = 1032 ∨ a = 1188 then 1 else 0

theorem attr_round_trip_iff_tail :
    uapi13900.Wider ∧
    (Same (attrNewToOld 5000 1040 (translateTx02300ToNew uapi13900.tx 1000 tailAnswer)) 5000 tailAnswer 1040
      oldAttrSize ↔ TailZero tailAnswer 1040) :=
  ⟨uapi13900_wider, (attr_round_trip_iff uapi13900 uapi13900_wider 1000 tailAnswer).1 0 (by decide) _ 1040 5000
    (fun _ _ => rfl) (by decide)⟩

theorem attr_tail_lost :
    ¬ Same (attrNewToOld 5000 1040 (translateTx02300ToNew uapi13900.tx 1000 tailAnswer)) 5000 tailAnswer 1040
      oldAttrSize ∧
    ¬ Same (attrNewToOld 5000 1040 (translateRx02300ToNew uapi13900.rx 1000 tailAnswer)) 5000 tailAnswer 1040
      oldAttrSize := by
  constructor
  · intro h
    have h148 := h 148 (by decide)
    revert h148
    decide +kernel
  · intro h
    have h148 := h 148 (by decide)
    revert h148
    decide +kernel

end IpaOffload.Bridge
