import IpaOffload.Ioss.Iova

/-!
# What a failed registration releases

The failures after the channels are described go through the label that frees
every buffer list and zeroes every description. A channel that cannot be
described jumps past it: its own list is freed, but the lists of the channels
before it are not, and no description is zeroed. A device of unknown client
type returns at once and leaves the client filled in.
-/

namespace IpaOffload.Ioss

open DeviceTree Fallible

variable {w : Nat} {p : IpaParams} {m : Platform w} {chs : List (IpaChannel w)} {s s' : IpaState w}

/-- Every list allocated from `s` to `s'` is freed once, and nothing is left of
the descriptions, the client and the interface information. -/
structure Released (m : Platform w) (s s' : IpaState w) : Prop where
  freed : ∃ freed, s'.freed = s.freed ++ freed ∧ ∀ id ∈ allocated m s s', freed.count id = 1
  pipes : ∀ pi ∈ s'.pipes, pi = {}
  cleared : s'.cleared = true

-- ---------------------------------------------------------------------------
-- Described channels
-- ---------------------------------------------------------------------------

section
variable {alloc : Nat} {pis : List (PipeInfo w)}

theorem Prepared.fillable (h : Prepared p m alloc chs pis) :
    ∀ k ch, chs[k]? = some ch → Fillable p m ch (alloc + k) := by
  induction h with
  | nil => simp
  | cons pi hb hhal _ ih =>
    intro k ch hk
    cases k with
    | zero =>
      cases hk
      exact ⟨⟨_, hb⟩, hhal⟩
    | succ k =>
      have hfill := ih k ch hk
      rwa [Nat.add_right_comm] at hfill

theorem Prepared.lists (h : Prepared p m alloc chs pis) :
    pis.filterMap (fun pi => pi.dataBuffList.map (·.id)) = List.range' alloc chs.length := by
  induction h with
  | nil => rfl
  | cons pi _ _ _ ih =>
    rw [List.length_cons, List.range'_succ, ← ih]
    rfl

theorem Prepared.releases {s₁ : IpaState w} (h : Prepared p m s.allocs chs s₁.pipes)
    (hallocs : s₁.allocs = s.allocs + chs.length) (hfreed : s₁.freed = s.freed) : Released m s (released s₁) := by
  refine ⟨⟨_, congrArg (· ++ _) hfreed, fun id hid => ?_⟩, ?_, rfl⟩
  · have hmem := (List.mem_filter.mp hid).1
    have hcount : (released s₁).allocs - s.allocs = chs.length := by
      rw [← Nat.add_sub_cancel_left s.allocs chs.length, ← hallocs]
      rfl
    rw [hcount] at hmem
    rw [h.lists]
    exact List.count_eq_one_of_mem List.nodup_range' hmem
  · intro pi hpi
    obtain ⟨-, -, rfl⟩ := List.mem_map.mp hpi
    rfl

end

/-- A failed registration releases everything exactly when the client type is
known and every channel can be described. -/
theorem failed_register_releases_iff {w : Nat} (p : IpaParams) (m : Platform w) (chs : List (IpaChannel w))
    (s s' : IpaState w) (e : Errno) (hlen : s.pipes.length = chs.length)
    (hfail : exec (iossIpaRegister p m chs) s = (.error e, s')) :
    Released m s s' ↔
      m.ctype = true ∧ ∀ k ch, chs[k]? = some ch → Fillable p m ch (s.allocs + k) := by
  cases iossIpaRegister_runs hlen hfail with
  | unknownType hctype =>
    constructor
    · intro hrel
      cases hrel.cleared
    · rintro ⟨htrue, -⟩
      simp [htrue] at hctype
  | unfilled s₁ _ hset hnot =>
    obtain ⟨pi, hpi, hclient⟩ := hset
    obtain ⟨k, ch, hk, hnot⟩ := hnot
    constructor
    · intro hrel
      rw [hrel.pipes pi hpi] at hclient
      cases hclient
    · rintro ⟨-, hall⟩
      exact absurd (hall k ch hk) hnot
  | released pis c hctype hpis =>
    exact ⟨fun _ => ⟨hctype, hpis.fillable⟩, fun _ => Prepared.releases hpis rfl rfl⟩

theorem failed_register_releases_iff_preflight_only :
    ∃ s', exec (iossIpaRegister { preflightOnly := true } plainPlatform mixedChannels) unregistered = (.error .inval, s') ∧
      (Released plainPlatform unregistered s' ↔
        plainPlatform.ctype = true ∧ ∀ k ch, mixedChannels[k]? = some ch →
          Fillable { preflightOnly := true } plainPlatform ch (unregistered.allocs + k)) :=
  ⟨_, rfl, failed_register_releases_iff { preflightOnly := true } plainPlatform mixedChannels unregistered _ .inval rfl rfl⟩

-- ---------------------------------------------------------------------------
-- A second channel without descriptor memory
-- ---------------------------------------------------------------------------

def secondBare : List (IpaChannel 32) :=
  [ringChannel .rx 0x10000 0x20000, { ringChannel .tx 0x18000 0x28000 with descMem := [] }]

/-- The list of the first channel is not freed, and its description stays. -/
theorem first_list_leaked :
    ∃ s', exec (iossIpaRegister {} plainPlatform secondBare) unregistered = (.error .inval, s') ∧
      allocated plainPlatform unregistered s' = [0] ∧ s'.freed = [] ∧
      s'.pipes.map (fun pi => pi.dataBuffList.map (·.id)) = [some 0, none] ∧
      ¬ Released plainPlatform unregistered s' := by
  refine ⟨_, rfl, by decide +kernel, rfl, rfl, fun hrel => ?_⟩
  obtain ⟨freed, hfreed, hall⟩ := hrel.freed
  have hnil : [] = freed := hfreed
  have hone := hall 0 (by decide +kernel)
  rw [← hnil] at hone
  cases hone

end IpaOffload.Ioss
