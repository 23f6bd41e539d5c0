import IpaOffload.Bridge.RuleFaithful

/-!
# V2 requests

A V2 header declares the size of its records and points at them, and a V2
record starts with `at_rear`, the handle and the status and has the rule last.
The V2 translators step through the caller's array by the size of the record
without V2 and read and write its fields where that record has them.

`StrideLaw` is about the step alone, and about staying inside the records: with
the header held fixed and the array left arbitrary it comes down to
`strideLaw_iff`. `FltV2Contract` is what a
filter rule needs on the way to a kernel that reads
`ipa_flt_rule_add_v2_legacy`.
-/

namespace IpaOffload.Bridge

open ByteMem StateFrame

/-- `struct ipa_flt_rule_add_v2_legacy`, and the start of the caller's V2
filter record: the fields before the rule, and the size with a rule of 364
bytes behind them. -/
def fltV2AtRear : Nat := 0
def fltV2Hdl : Nat := 4
def fltV2Status : Nat := 8
def fltV2Rule : Nat := 12
def legacyFltAddV2Size : Nat := fltV2Rule + 364

section
variable {σ : Type} {P : Platform σ} {s : AddSpec} {w : World σ} {fd : Int} {request arg : Nat}

namespace AddSpec

def declRec (s : AddSpec) (U : Uapi) (m : Mem) (arg i : Nat) : Nat :=
  s.newRules U m arg + i * s.recSize U m arg

end AddSpec

-- ---------------------------------------------------------------------------
-- The step through the caller's array
-- ---------------------------------------------------------------------------

/-- Record `i` is taken from the caller's `i`-th record by the declared size,
and its results go back there. -/
structure StrideLaw (P : Platform σ) (s : AddSpec) (w : World σ) (fd : Int) (request arg : Nat) : Prop where
  /-- The last of the fields that are used, `status`, ends inside the record. -/
  inside : s.kind.new.status + 4 ≤ s.recSize P.uapi w.mem arg
  rule : ∀ i k, i < s.numRules P.uapi w.mem arg → k < s.kind.ruleSize →
    (addCall P s w fd request arg).before (s.oldRec P.buf i + k) =
      s.kind.image (fun j => w.mem (s.declRec P.uapi w.mem arg i + j)) k
  atRear : ∀ i, i < s.numRules P.uapi w.mem arg →
    (addCall P s w fd request arg).before (s.oldRec P.buf i + s.kind.oldAtRear) =
      w.mem (s.declRec P.uapi w.mem arg i + s.kind.new.atRear)
  hdl : ∀ i, i < s.numRules P.uapi w.mem arg →
    Same ((translateAddIoctl P s fd request arg).run w).2.mem
      (s.declRec P.uapi w.mem arg i + s.kind.new.hdl)
      (addCall P s w fd request arg).after (s.oldRec P.buf i + s.kind.oldHdl) 4
  status : ∀ i, i < s.numRules P.uapi w.mem arg →
    Same ((translateAddIoctl P s fd request arg).run w).2.mem
      (s.declRec P.uapi w.mem arg i + s.kind.new.status)
      (addCall P s w fd request arg).after (s.oldRec P.buf i + s.kind.oldStatus) 4

/-- A V2 request the translator accepts, with the caller's header, the
caller's records and the stack buffer in places of their own. -/
structure V2Request (P : Platform σ) (s : AddSpec) (w : World σ) (arg : Nat) : Prop where
  v2 : s.v2 = true
  accepts : s.accepts P.uapi w.mem arg = true
  placed : s.Placed P.uapi P.buf w.mem arg
  array : Apart arg s.hdr (s.newRules P.uapi w.mem arg) (s.numRules P.uapi w.mem arg * s.kind.new.size)

theorem V2Request.withMem (h : V2Request P s w arg) {m' : Mem} (hm : Same m' arg w.mem arg s.hdr) :
    V2Request P s (w.withMem m') arg := by
  have hv := h.v2
  have hpos := AddSpec.hdr_pos_of_v2 hv
  have hn := AddSpec.numRules_congr (U := P.uapi) hm hpos
  have hr := AddSpec.newRules_congr (U := P.uapi) hm
  have hf := AddSpec.rulesField_congr (U := P.uapi) hv hm
  refine ⟨hv, ?_, h.placed.congr hm hpos, ?_⟩
  · have hacc := AddSpec.accepts_iff.mp h.accepts
    exact AddSpec.accepts_iff.mpr (by simpa only [World.withMem, hn, hf] using hacc)
  · simpa only [World.withMem, hn, hr] using h.array

theorem V2Request.numRules_le (h : V2Request P s w arg) :
    s.numRules P.uapi w.mem arg ≤ rtFltMaxTranslateRules :=
  (AddSpec.accepts_iff.mp h.accepts).2.2.1

theorem strideLaw_of_declRec (h : V2Request P s w arg)
    (hin : s.kind.new.status + 4 ≤ s.recSize P.uapi w.mem arg)
    (hrec : ∀ i, i < s.numRules P.uapi w.mem arg →
      s.declRec P.uapi w.mem arg i = s.newRec P.uapi w.mem arg i) :
    StrideLaw P s w fd request arg := by
  have hmem := congrArg Silent.mem (translateAddIoctl_accept fd request h.accepts).2
  simp only [World.silent] at hmem
  have hp := h.placed
  have hn := h.numRules_le
  refine ⟨hin, fun i k hi hk => ?_, fun i hi => ?_, fun i hi => ?_, fun i hi => ?_⟩
  · rw [hrec i hi]
    exact AddSpec.build_rule hp hn hi hk
  · rw [hrec i hi]
    exact AddSpec.build_atRear hp hn hi
  · rw [hrec i hi, hmem]
    exact AddSpec.copyBack_hdl hp hn _ hi
  · rw [hrec i hi, hmem]
    exact AddSpec.copyBack_status hp hn _ hi

theorem V2Request.second_byte (h : V2Request P s w arg) (hc : s.kind.Carries ⟨0, 0, 12⟩)
    (hn : 2 ≤ s.numRules P.uapi w.mem arg) (hlaw : StrideLaw P s w fd request arg) :
    w.mem (s.newRec P.uapi w.mem arg 1) = w.mem (s.declRec P.uapi w.mem arg 1) := by
  have hrule : 0 < s.kind.ruleSize := Nat.lt_of_lt_of_le (by decide) hc.old_le
  have h1 : 1 < s.numRules P.uapi w.mem arg := by omega
  have hread := AddSpec.build_rule h.placed h.numRules_le h1 hrule
  have heq := hread.symm.trans (hlaw.rule 1 0 h1 hrule)
  have himg := fun f => hc.image_eq f 0 (by decide)
  simp only [Nat.add_zero] at himg
  rw [himg, himg] at heq
  exact heq

/-- With two records or more and another size declared, the second record
shows the wrong step: its first byte is not the one at the declared place. -/
theorem not_strideLaw (fd : Int) (request : Nat) (h : V2Request P s w arg) (hc : s.kind.Carries ⟨0, 0, 12⟩)
    (hn : 2 ≤ s.numRules P.uapi w.mem arg) (hne : s.recSize P.uapi w.mem arg ≠ s.kind.new.size) :
    ∃ m', Same m' arg w.mem arg s.hdr ∧ ¬ StrideLaw P s (w.withMem m') fd request arg := by
  have hpos : 0 < s.kind.new.size := by have := s.kind.new.status_le; omega
  let a := s.newRec P.uapi w.mem arg 1
  let b := s.declRec P.uapi w.mem arg 1
  have hab : b ≠ a := by simp only [a, b, AddSpec.newRec, AddSpec.declRec]; omega
  -- change the byte the translator reads, away from the one at the declared place
  let m' := w.mem.poke a (w.mem b + 1)
  have hhdr : Same m' arg w.mem arg s.hdr := by
    intro k hk
    have harr := h.array
    have hbnd := AddSpec.newRec_bounds (show 1 < s.numRules P.uapi w.mem arg by omega)
    have hka : arg + k ≠ a := by unfold Apart at harr; omega
    exact if_neg hka
  have hpos' := AddSpec.hdr_pos_of_v2 h.v2
  have hn' := AddSpec.numRules_congr (U := P.uapi) hhdr hpos'
  have hr' := AddSpec.newRules_congr (U := P.uapi) hhdr
  have hs' := AddSpec.recSize_congr (U := P.uapi) h.v2 hhdr
  refine ⟨m', hhdr, fun hlaw => ?_⟩
  have heq := (h.withMem hhdr).second_byte hc (le_of_le_of_eq hn hn'.symm) hlaw
  have ha : s.newRec P.uapi (w.withMem m').mem arg 1 = a := by
    show s.newRec P.uapi m' arg 1 = a
    simp only [a, AddSpec.newRec, hr']
  have hb : s.declRec P.uapi (w.withMem m').mem arg 1 = b := by
    show s.declRec P.uapi m' arg 1 = b
    simp only [b, AddSpec.declRec, hr', hs']
  rw [ha, hb] at heq
  have hma : m' a = w.mem b + 1 := if_pos rfl
  have hmb : m' b = w.mem b := if_neg hab
  exact byte_succ_ne _ ((hma.symm.trans heq).trans hmb)

/-- For a V2 header, the records are the caller's whatever they hold exactly
when the declared size is that of the record without V2, or there is one record
and it reaches to the end of `status`. -/
theorem strideLaw_iff (h : V2Request P s w arg) (hc : s.kind.Carries ⟨0, 0, 12⟩) :
    (∀ m', Same m' arg w.mem arg s.hdr → StrideLaw P s (w.withMem m') fd request arg) ↔
      s.recSize P.uapi w.mem arg = s.kind.new.size ∨
        s.numRules P.uapi w.mem arg = 1 ∧ s.kind.new.status + 4 ≤ s.recSize P.uapi w.mem arg := by
  refine ⟨fun hlaw => ?_, fun hcond m' hm => ?_⟩
  · have hin : s.kind.new.status + 4 ≤ s.recSize P.uapi w.mem arg := (hlaw w.mem fun _ _ => rfl).inside
    by_contra hcon
    push Not at hcon
    have hne := (AddSpec.accepts_iff.mp h.accepts).2.1
    have hmany : s.numRules P.uapi w.mem arg ≠ 1 := fun h1 => absurd (hcon.2 h1) (by omega)
    obtain ⟨m', hm, hnot⟩ := not_strideLaw fd request h hc (by omega) hcon.1
    exact hnot (hlaw m' hm)
  · have hin : s.kind.new.status + 4 ≤ s.recSize P.uapi w.mem arg := by
      have hle := s.kind.new.status_le
      rcases hcond with h1 | h1
      · omega
      · exact h1.2
    have hpos := AddSpec.hdr_pos_of_v2 h.v2
    have hn := AddSpec.numRules_congr (U := P.uapi) hm hpos
    have hr := AddSpec.newRules_congr (U := P.uapi) hm
    have hs := AddSpec.recSize_congr (U := P.uapi) h.v2 hm
    refine strideLaw_of_declRec (h.withMem hm) (le_of_le_of_eq hin hs.symm) fun i hi => ?_
    have hi' : i < s.numRules P.uapi w.mem arg := hn ▸ hi
    show s.declRec P.uapi m' arg i = s.newRec P.uapi m' arg i
    simp only [AddSpec.declRec, AddSpec.newRec, hr, hs]
    rcases hcond with h1 | h1
    · rw [h1]
    · have hi0 : i = 0 := by omega
      simp [hi0]

/-- Byte 160 of a record is padding to the translator. In a V2 record, where the
attributes start at byte 24, it is one of the bytes both layouts have. -/
theorem v2_padding_byte (h : V2Request P s w arg) (himg : ∀ f, s.kind.image f 160 = 0)
    (hrule : 160 < s.kind.ruleSize) (hsize : 160 < s.kind.new.size) :
    ∃ m', Same m' arg w.mem arg s.hdr ∧ 0 < s.numRules P.uapi m' arg ∧
      s.build P.uapi P.buf arg m' (s.oldRec P.buf 0 + 160) = 0 ∧
      m' (s.declRec P.uapi m' arg 0 + 160) = 1 := by
  let a := s.newRules P.uapi w.mem arg + 160
  let m' := w.mem.poke a 1
  have hn : 1 ≤ s.numRules P.uapi w.mem arg :=
    Nat.one_le_iff_ne_zero.mpr (AddSpec.accepts_iff.mp h.accepts).2.1
  have hhdr : Same m' arg w.mem arg s.hdr := by
    intro k hk
    have harr := h.array
    have hle := stride_mono (S := s.kind.new.size) hn
    have hka : arg + k ≠ a := by unfold Apart at harr; omega
    exact if_neg hka
  have hreq := h.withMem hhdr
  have hn' : s.numRules P.uapi m' arg = s.numRules P.uapi w.mem arg :=
    AddSpec.numRules_congr hhdr (AddSpec.hdr_pos_of_v2 h.v2)
  have hr' : s.newRules P.uapi m' arg = s.newRules P.uapi w.mem arg := AddSpec.newRules_congr hhdr
  have hdecl : s.declRec P.uapi m' arg 0 + 160 = a := by
    simp only [AddSpec.declRec, hr', a]
    omega
  refine ⟨m', hhdr, by omega, ?_, ?_⟩
  · have hbuilt := AddSpec.build_rule hreq.placed hreq.numRules_le
      (show 0 < s.numRules P.uapi m' arg by omega) hrule
    exact hbuilt.trans (himg _)
  · rw [hdecl]
    exact if_pos rfl

-- ---------------------------------------------------------------------------
-- V2 filter rules
-- ---------------------------------------------------------------------------

/-- Where the fields of the caller's records must arrive, and where the results
must return to; the kernel's records start at `buf + 40`. -/
structure FltV2Placement (P : Platform σ) (w : World σ) (fd : Int) (request arg : Nat) : Prop where
  atRear : ∀ i, i < (addFltV2Spec P.uapi).numRules P.uapi w.mem arg →
    (addCall P (addFltV2Spec P.uapi) w fd request arg).before
        (P.buf + 40 + i * legacyFltAddV2Size + fltV2AtRear) =
      w.mem ((addFltV2Spec P.uapi).declRec P.uapi w.mem arg i + fltV2AtRear)
  /-- The first 12 bytes of the rule and the attributes both layouts have. -/
  rule : ∀ i, i < (addFltV2Spec P.uapi).numRules P.uapi w.mem arg →
    Same (addCall P (addFltV2Spec P.uapi) w fd request arg).before
      (P.buf + 40 + i * legacyFltAddV2Size + fltV2Rule)
      w.mem ((addFltV2Spec P.uapi).declRec P.uapi w.mem arg i + fltV2Rule) (12 + attrCommonSize)
  hdl : ∀ i, i < (addFltV2Spec P.uapi).numRules P.uapi w.mem arg →
    Same ((translateAddFltV2Ioctl P fd request arg).run w).2.mem
      ((addFltV2Spec P.uapi).declRec P.uapi w.mem arg i + fltV2Hdl)
      (addCall P (addFltV2Spec P.uapi) w fd request arg).after
      (P.buf + 40 + i * legacyFltAddV2Size + fltV2Hdl) 4
  status : ∀ i, i < (addFltV2Spec P.uapi).numRules P.uapi w.mem arg →
    Same ((translateAddFltV2Ioctl P fd request arg).run w).2.mem
      ((addFltV2Spec P.uapi).declRec P.uapi w.mem arg i + fltV2Status)
      (addCall P (addFltV2Spec P.uapi) w fd request arg).after
      (P.buf + 40 + i * legacyFltAddV2Size + fltV2Status) 4

structure FltV2Contract (P : Platform σ) (w : World σ) (fd : Int) (request arg : Nat) : Prop
    extends FltV2Placement P w fd request arg where
  declares : rd32 (addCall P (addFltV2Spec P.uapi) w fd request arg).before
    (P.buf + P.uapi.off .addFltRuleV2 .ruleSize) = legacyFltAddV2Size

theorem fltV2_declares (h : V2Request P (addFltV2Spec P.uapi) w arg) :
    rd32 (addCall P (addFltV2Spec P.uapi) w fd request arg).before
      (P.buf + P.uapi.off .addFltRuleV2 .ruleSize) = oldFltAddSize := by
  have hb := AddSpec.v2_bounds (s := addFltV2Spec P.uapi) (U := P.uapi) rfl
  have hsize : rd32 ((addFltV2Spec P.uapi).putHeader P.uapi P.buf arg w.mem)
      (P.buf + P.uapi.off .addFltRuleV2 .ruleSize) = oldFltAddSize :=
    AddSpec.putHeader_ruleSize rfl (show oldFltAddSize < 2 ^ 32 by decide)
  refine Eq.trans (rd32_congr fun k hk => ?_) hsize
  show (addFltV2Spec P.uapi).build P.uapi P.buf arg w.mem _ = _
  simp only [Nat.add_assoc]
  refine AddSpec.build_header h.placed h.numRules_le ?_
  have hreq : (addFltV2Spec P.uapi).req = .addFltRuleV2 := rfl
  rw [hreq] at hb
  omega

theorem V2Request.others_kept (h : V2Request P s w arg) (ha : ¬ s.ResultByte P.uapi w.mem arg a) :
    ((translateAddIoctl P s fd request arg).run w).2.mem a = (addCall P s w fd request arg).after a := by
  have hmem := congrArg Silent.mem (translateAddIoctl_accept fd request h.accepts).2
  exact (congrFun hmem a).trans (AddSpec.copyBack_elsewhere h.placed h.numRules_le _ ha)

theorem not_fltV2Placement (fd : Int) (request : Nat) (h : V2Request P (addFltV2Spec P.uapi) w arg) :
    ∃ m', Same m' arg w.mem arg (addFltV2Spec P.uapi).hdr ∧
      ¬ FltV2Placement P (w.withMem m') fd request arg := by
  obtain ⟨m', hhdr, hn, hzero, hone⟩ := v2_padding_byte h (fun _ => rfl) (fltKind_long P.uapi).1
    (fltKind_long P.uapi).2
  refine ⟨m', hhdr, fun hlaw => ?_⟩
  have hwant := hlaw.rule 0 hn 148 (by decide)
  have hold : P.buf + 40 + 0 * legacyFltAddV2Size + fltV2Rule + 148 =
      (addFltV2Spec P.uapi).oldRec P.buf 0 + 160 := by
    show _ = P.buf + 40 + 0 * _ + 160
    simp only [fltV2Rule]
    omega
  have hnew : (addFltV2Spec P.uapi).declRec P.uapi (w.withMem m').mem arg 0 + fltV2Rule + 148 =
      (addFltV2Spec P.uapi).declRec P.uapi m' arg 0 + 160 := by
    show (addFltV2Spec P.uapi).declRec P.uapi m' arg 0 + fltV2Rule + 148 = _
    simp only [fltV2Rule]
  rw [hold, hnew] at hwant
  exact absurd ((hzero.symm.trans hwant).trans hone) (by decide)

/-- The V2 translators against the layout of a V2 request. A filter rule never
arrives as the kernel's V2 record: the declared size is wrong, and for no
header are the fields in place whatever the records hold. The other three step
rightly through the array of a caller that declares the size of the record
without V2, and keep to a single record that is long enough. -/
theorem v2_requests_served_iff (P : Platform σ) (w : World σ) (fd : Int) (request arg : Nat) :
    (V2Request P (addFltV2Spec P.uapi) w arg →
      ¬ FltV2Contract P w fd request arg ∧
      ¬ ∀ m', Same m' arg w.mem arg (addFltV2Spec P.uapi).hdr →
        FltV2Placement P (w.withMem m') fd request arg) ∧
    ∀ s ∈ [addRtV2Spec P.uapi, addRtAfterV2Spec P.uapi, addFltAfterV2Spec P.uapi], V2Request P s w arg →
      ((∀ m', Same m' arg w.mem arg s.hdr → StrideLaw P s (w.withMem m') fd request arg) ↔
        s.recSize P.uapi w.mem arg = s.kind.new.size ∨
          s.numRules P.uapi w.mem arg = 1 ∧ s.kind.new.status + 4 ≤ s.recSize P.uapi w.mem arg) := by
  refine ⟨fun h => ⟨fun hcon => ?_, fun hall => ?_⟩, ?_⟩
  · exact absurd ((fltV2_declares h).symm.trans hcon.declares) (by decide)
  · obtain ⟨m', hm, hnot⟩ := not_fltV2Placement fd request h
    exact hnot (hall m' hm)
  · have hrt : (rtKind P.uapi).Carries ⟨0, 0, 12⟩ := rtKind_carries _ (by simp [rtGroups])
    have hflt : (fltKind P.uapi).Carries ⟨0, 0, 12⟩ := fltKind_carries _ (by simp [fltGroups])
    intro s hs h
    simp only [List.mem_cons, List.not_mem_nil, or_false] at hs
    rcases hs with rfl | rfl | rfl
    · exact strideLaw_iff h hrt
    · exact strideLaw_iff h hrt
    · exact strideLaw_iff h hflt

/-- A V2 request at 4096 for `n` records of `size` bytes at 8192; the three fields
stand where a header has them, and `mark` is the only other byte that is not
zero. -/
def v2World (nOff sizeOff rulesOff : Nat) (n : UInt8) (size mark : Nat) : World Unit :=
  { mem := fun a =>
      if a = 4096 + nOff then n
      else if a = 4096 + sizeOff then UInt8.ofNat size
      else if a = 4096 + sizeOff + 1 then UInt8.ofNat (size / 256)
      else if a = 4096 + rulesOff + 1 then 32
      else if a = mark then 1
      else 0
    os := () }

def numbering : Platform Unit :=
  ⟨uapi13900, fixedOs 0 (fun m => m.poke (65536 + 40 + legacyFltAddV2Size + fltV2Hdl) 7) none, 65536⟩

theorem addCall_numbering (s : AddSpec) (w : World Unit) (fd : Int) (request arg a : Nat) :
    (addCall numbering s w fd request arg).after a =
      if a = 65536 + 40 + legacyFltAddV2Size + fltV2Hdl then 7 else s.build uapi13900 65536 arg w.mem a := rfl

theorem fltV2Request_two :
    V2Request numbering (addFltV2Spec uapi13900) (v2World 13 16 32 2 388 0) 4096 :=
  ⟨rfl, by decide, ⟨by decide, by decide⟩, by decide⟩

theorem rtV2Request_two (size mark : Nat) (hsize : size = 192 ∨ size = 196) (hmark : mark = 0 ∨ mark = 8192 + 196) :
    V2Request numbering (addRtV2Spec uapi13900) (v2World 40 44 56 2 size mark) 4096 := by
  rcases hsize with rfl | rfl <;> rcases hmark with rfl | rfl <;>
    exact ⟨rfl, by decide, ⟨by decide, by decide⟩, by decide⟩

theorem v2_requests_served_iff_two :
    ¬ FltV2Contract numbering (v2World 13 16 32 2 388 0) 3 0xCF47 4096 ∧
    StrideLaw numbering (addRtV2Spec uapi13900)
      ((v2World 40 44 56 2 192 0).withMem (v2World 40 44 56 2 192 (8192 + 196)).mem) 3 0xCF44 4096 := by
  refine ⟨((v2_requests_served_iff numbering (v2World 13 16 32 2 388 0) 3 0xCF47 4096).1 fltV2Request_two).1, ?_⟩
  refine ((v2_requests_served_iff numbering (v2World 40 44 56 2 192 0) 3 0xCF44 4096).2 (addRtV2Spec uapi13900)
    (List.mem_cons_self ..) (rtV2Request_two 192 0 (.inl rfl) (.inl rfl))).mpr (.inl (by decide)) _ ?_
  show ∀ k, k < 64 → _
  decide

/-- Two filter rules of 0x184 bytes: 0x174 is passed on, and the handle of the
second does not come back. Two route rules of 196 bytes: the second is read from
the end of the first. -/
theorem v2_two_records_misread :
    (V2Request numbering (addFltV2Spec uapi13900) (v2World 13 16 32 2 388 0) 4096 ∧
      (addFltV2Spec uapi13900).numRules uapi13900 (v2World 13 16 32 2 388 0).mem 4096 = 2 ∧
      (addFltV2Spec uapi13900).recSize uapi13900 (v2World 13 16 32 2 388 0).mem 4096 = 0x184 ∧
      ¬ FltV2Contract numbering (v2World 13 16 32 2 388 0) 3 0xCF47 4096 ∧
      ¬ FltV2Placement numbering (v2World 13 16 32 2 388 0) 3 0xCF47 4096) ∧
    V2Request numbering (addRtV2Spec uapi13900) (v2World 40 44 56 2 196 (8192 + 196)) 4096 ∧
      ¬ StrideLaw numbering (addRtV2Spec uapi13900) (v2World 40 44 56 2 196 (8192 + 196)) 3 0xCF44 4096 := by
  have hflt := fltV2Request_two
  have hrt := rtV2Request_two 196 (8192 + 196) (.inr rfl) (.inr rfl)
  refine ⟨⟨hflt, by decide, by decide, fun hcon => ?_, fun hplaced => ?_⟩, hrt, fun hlaw => ?_⟩
  · exact absurd ((fltV2_declares hflt).symm.trans hcon.declares) (by decide)
  · have hout : ¬ (addFltV2Spec uapi13900).ResultByte uapi13900 (v2World 13 16 32 2 388 0).mem 4096
        (8192 + 388 + 4) := by
      rintro ⟨i, hi, hin⟩
      have hall : ∀ i, i < 2 → ¬ (In (8192 + i * 384 + 376) 4 (8192 + 388 + 4) ∨
        In (8192 + i * 384 + 380) 4 (8192 + 388 + 4)) := by decide
      exact hall i hi hin
    have hback := (hplaced.hdl 1 (by decide) 0 (by decide)).symm.trans (hflt.others_kept hout)
    rw [addCall_numbering, addCall_numbering, if_pos (by decide)] at hback
    refine absurd (hback.trans ((if_neg (by decide)).trans ?_)) (show (7 : UInt8) ≠ 0 by decide)
    exact (AddSpec.build_outside hflt.placed hflt.numRules_le (by decide)).trans (by decide)
  · exact absurd (hrt.second_byte (rtKind_carries _ (by simp [rtGroups])) (by decide) hlaw) (by decide)

end

end IpaOffload.Bridge
