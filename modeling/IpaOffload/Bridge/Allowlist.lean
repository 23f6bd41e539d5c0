import IpaOffload.Bridge.IoctlLaws
import IpaOffload.Lib.Scan

/-!
# What the environment says about interfaces

The scanner of the environment block finds the first entry of a name, and the
list matcher finds a token of a comma-separated list, as one would define them
on whole texts: by splitting at the separators.
-/

namespace IpaOffload.Bridge

open StateFrame Scan

-- ---------------------------------------------------------------------------
-- Lists of interfaces
-- ---------------------------------------------------------------------------

theorem skipSep_scans (csv : Bytes) : Scans 0 (fun c => c = 32 ∨ c = 44) csv (skipSep csv) :=
  ⟨fun _ => rfl, fun _ _ => by simp [skipSep]⟩

theorem tokenEnd_scans (csv : Bytes) : Scans 0 (fun c => c ≠ 0 ∧ c ≠ 44) csv (tokenEnd csv) :=
  ⟨fun _ => rfl, fun _ _ => by simp [tokenEnd]⟩

theorem trimLen_spec (csv : Bytes) (start : Nat) (hlen : len ≤ (csv.drop start).length) :
    trimLen csv start len ≤ len ∧
    (csv.drop start).take (trimLen csv start len) = ((csv.drop start).take len).rdropWhile (· = 32) := by
  induction len with
  | zero => exact ⟨Nat.le_refl 0, by simp [trimLen]⟩
  | succ len ih =>
    have hlt : start + len < csv.length := by rw [List.length_drop] at hlen; omega
    have hget : csv.getD (start + len) 0 = (csv.drop start)[len] := by
      rw [List.getD_eq_getElem _ _ hlt, List.getElem_drop]
    have htake := List.take_append_getElem (by omega : len < (csv.drop start).length)
    rw [trimLen, hget]
    by_cases hb : (csv.drop start)[len] = 32
    · obtain ⟨hle, heq⟩ := ih (by omega)
      rw [if_pos hb, ← htake, List.rdropWhile_concat_pos _ _ _ (by simpa using hb)]
      exact ⟨by omega, heq⟩
    · rw [if_neg hb]
      conv_rhs => rw [← htake, List.rdropWhile_concat_neg _ _ _ (by simpa using hb), htake]
      exact ⟨Nat.le_refl _, rfl⟩

/-- One round of the list loop, from `pos`: the token `tok` begins at `start`,
with the blanks behind it, and ends at `stop`. -/
structure CsvRound (csv : Bytes) (pos start stop : Nat) (tok : Bytes) : Prop where
  skip : skipSep csv csv.length pos = start
  token : tokenEnd csv csv.length start = stop
  forward : pos < stop
  front : csv.drop start = (csv.drop pos).dropWhile fun c => c = 32 ∨ c = 44
  split : csv.drop start = tok ++ csv.drop stop
  length : stop = start + tok.length
  free : 44 ∉ tok
  stripped : strip 32 tok = tok.rdropWhile (· = 32)
  rest : csv.drop stop = [] ∨ ∃ r, csv.drop stop = 44 :: r

theorem csvRound {csv : Bytes} {pos : Nat} (hz : 0 ∉ csv) (hpos : csv.getD pos 0 ≠ 0) :
    ∃ start stop tok, CsvRound csv pos start stop tok := by
  let sep : UInt8 → Bool := fun c => c = 32 ∨ c = 44
  let inTok : UInt8 → Bool := fun c => c ≠ 0 ∧ c ≠ 44
  obtain ⟨start, hstart⟩ : ∃ start, start = pos + ((csv.drop pos).takeWhile sep).length := ⟨_, rfl⟩
  have hfront : csv.drop start = (csv.drop pos).dropWhile sep := by
    rw [hstart, ← List.drop_drop, drop_takeWhile_length]
  obtain ⟨tok, htok⟩ : ∃ tok, tok = (csv.drop start).takeWhile inTok := ⟨_, rfl⟩
  have hrest : csv.drop (start + tok.length) = (csv.drop start).dropWhile inTok := by
    rw [htok, ← List.drop_drop, drop_takeWhile_length]
  have hsplit : csv.drop start = tok ++ csv.drop (start + tok.length) := by
    rw [hrest, htok, List.takeWhile_append_dropWhile]
  have hin : ∀ c ∈ tok, inTok c = true := fun c hc => List.mem_takeWhile_imp (htok ▸ hc)
  refine ⟨start, start + tok.length, tok, ?_, ?_, ?_, hfront, hsplit, rfl, ?_, ?_, ?_⟩
  · rw [(skipSep_scans csv).eq rfl (by omega), hstart]
  · rw [(tokenEnd_scans csv).eq rfl (by omega), htok]
  · -- the character at `pos` belongs to what is skipped or to the token
    have hlt : pos < csv.length := by
      by_contra hge
      exact hpos (List.getD_eq_default _ _ (by omega))
    rw [List.getD_eq_getElem _ _ hlt] at hpos
    have hchar : sep csv[pos] = true ∨ inTok csv[pos] = true := by
      by_cases hcomma : csv[pos] = 44
      · exact .inl (by simp [sep, hcomma])
      · exact .inr (by simp [inTok, hpos, hcomma])
    have hprogress := takeWhile_progress (csv.drop (pos + 1)) hchar
    rw [← List.drop_eq_getElem_cons hlt, ← hfront, ← htok] at hprogress
    omega
  · intro hc
    simpa [inTok] using hin 44 hc
  · have hhead : tok.dropWhile (· = 32) = tok := by
      rw [htok, hfront]
      exact dropWhile_takeWhile_dropWhile (fun a ha => by simp_all [sep]) _
    rw [strip, hhead]
  · rw [hrest]
    obtain hnil | ⟨a, r, hcons, ha⟩ := dropWhile_cases inTok (csv.drop start)
    · exact .inl hnil
    · have hmem : a ∈ csv := by
        refine List.mem_of_mem_drop (i := start + tok.length) ?_
        rw [hrest, hcons]
        exact List.mem_cons_self
      have hcomma : a = 44 := by
        by_contra hne
        have hzero : a ≠ 0 := fun h => hz (h ▸ hmem)
        simp [inTok, hzero, hne] at ha
      exact .inr ⟨r, hcomma ▸ hcons⟩

theorem csvScan_iff {csv name : Bytes} (hz : 0 ∉ csv) (hname : name ≠ []) (hfuel : csv.length < fuel + pos) :
    csvScan csv name fuel pos = true ↔ name ∈ tokens 44 32 (csv.drop pos) := by
  induction fuel generalizing pos with
  | zero =>
    rw [List.drop_eq_nil_of_le (by omega)]
    simp [csvScan, hname]
  | succ fuel ih =>
    rw [csvScan]
    by_cases h0 : csv.getD pos 0 = 0
    · have hend : csv.length ≤ pos := by
        by_contra hlt
        rw [List.getD_eq_getElem _ _ (by omega)] at h0
        exact hz (h0 ▸ List.getElem_mem _)
      rw [if_pos h0, List.drop_eq_nil_of_le hend]
      simp [hname]
    · obtain ⟨start, stop, tok, h⟩ := csvRound hz h0
      have hforward := h.forward
      have htok : (csv.drop start).take (stop - start) = tok := by
        rw [h.split, h.length, Nat.add_sub_cancel_left, List.take_left]
      have hroom : stop - start ≤ (csv.drop start).length := by
        rw [h.split, h.length, List.length_append]
        omega
      obtain ⟨hle, htrim⟩ := trimLen_spec csv start hroom
      have hlen := congrArg List.length htrim
      rw [List.length_take, Nat.min_eq_left (Nat.le_trans hle hroom), htok] at hlen
      rw [htok] at htrim
      rw [if_neg h0, ← mem_tokens_dropWhile hname (by decide) (csv.drop pos), ← h.front, h.split,
        mem_tokens_append hname h.free h.rest, h.stripped, h.skip]
      dsimp only
      rw [h.token, htrim, hlen, ← ih (by omega)]
      by_cases hc : name = tok.rdropWhile (· = 32)
      · simp [hc]
      · have hc' : ¬ tok.rdropWhile (· = 32) = name := fun h => hc h.symm
        simp [hc, hc']

theorem csvHas_iff {csv name : Bytes} (hz : 0 ∉ csv) (hname : name ≠ []) :
    csvHas csv name = true ↔ csv = cstr "*" ∨ name ∈ tokens 44 32 csv := by
  unfold csvHas
  match csv, hz with
  | [], _ => simp [hname, cstr]
  | [a], hz =>
    have ha : a ≠ 0 := fun h => hz (by simp [h])
    by_cases hs : a = 42
    · subst hs
      simp [cstr]
    · rw [if_neg (by simpa using ha), if_neg (by simp [hs]), csvScan_iff hz hname (by omega)]
      simp [hs, cstr]
  | a :: b :: l, hz =>
    have ha : a ≠ 0 := fun h => hz (by simp [h])
    have hb : b ≠ 0 := fun h => hz (by simp [h])
    rw [if_neg (by simpa using ha), if_neg (by simp [hb]), csvScan_iff hz hname (by omega)]
    simp [cstr]

-- ---------------------------------------------------------------------------
-- The environment block
-- ---------------------------------------------------------------------------

theorem entryEnd_scans (buf : Bytes) : Scans 0 (fun c => c ≠ 0) buf (entryEnd buf) := by
  refine ⟨fun _ => rfl, fun fuel pos => ?_⟩
  rw [entryEnd]
  refine if_congr ?_ rfl rfl
  simp only [decide_eq_true_eq, and_iff_right_iff_imp]
  intro h
  by_contra hge
  exact h (List.getD_eq_default _ _ (by omega))

def envValue (name : Bytes) (entries : List Bytes) : Option Bytes :=
  entries.findSome? fun e => if name ++ [61] <+: e then some (e.drop (name.length + 1)) else none

theorem entry_named_iff {buf name e rest : Bytes} (hsplit : buf.drop start = e ++ rest) :
    (start + name.length < start + e.length ∧ buf.getD (start + name.length) 0 = 61 ∧
      (buf.drop start).take name.length = name) ↔ name ++ [61] <+: e := by
  have hget : ∀ k, (h : k < e.length) → buf.getD (start + k) 0 = e[k] := by
    intro k hk
    have hlen := congrArg List.length hsplit
    rw [List.length_drop, List.length_append] at hlen
    have hlt : k < (buf.drop start).length := by rw [List.length_drop]; omega
    rw [List.getD_eq_getElem _ _ (by omega), ← List.getElem_drop (h := hlt)]
    simp only [hsplit, List.getElem_append_left hk]
  constructor
  · rintro ⟨hlt, heq, htake⟩
    have hk : name.length < e.length := by omega
    rw [hget _ hk] at heq
    rw [hsplit, List.take_append_of_le_length (by omega)] at htake
    have hfront : e.take (name.length + 1) = name ++ [61] := by
      rw [← List.take_append_getElem hk, htake, heq]
    exact ⟨e.drop (name.length + 1), by rw [← hfront, List.take_append_drop]⟩
  · rintro ⟨v, rfl⟩
    have hk : name.length < (name ++ [61] ++ v).length := by simp
    refine ⟨by omega, ?_, ?_⟩
    · rw [hget _ hk]
      simp
    · rw [hsplit]
      simp

theorem envValue_cons (name e : Bytes) (es : List Bytes) :
    envValue name (e :: es) =
      if name ++ [61] <+: e then some (e.drop (name.length + 1)) else envValue name es := by
  unfold envValue
  rw [List.findSome?_cons]
  split <;> simp_all

@[simp] theorem envValue_empty (name : Bytes) : envValue name [[]] = none := by
  rw [envValue_cons, if_neg (by simp)]
  rfl

theorem envScan_eq {buf name : Bytes} (outSz : Nat) (hfuel : buf.length < fuel + start) :
    envScan buf name outSz fuel start =
      (envValue name ((buf.drop start).splitOn 0)).map (·.take (outSz - 1)) := by
  induction fuel generalizing start with
  | zero =>
    rw [List.drop_eq_nil_of_le (by omega)]
    simp [envScan]
  | succ fuel ih =>
    rw [envScan]
    by_cases hlt : start < buf.length
    · obtain ⟨e, he⟩ : ∃ e, e = (buf.drop start).takeWhile (· ≠ 0) := ⟨_, rfl⟩
      have hpos : entryEnd buf buf.length start = start + e.length := by
        rw [(entryEnd_scans buf).eq (by simp) (by omega), he]
      have hrest : buf.drop (start + e.length) = (buf.drop start).dropWhile (· ≠ 0) := by
        rw [he, ← List.drop_drop, drop_takeWhile_length]
      have hsplit : buf.drop start = e ++ buf.drop (start + e.length) := by
        rw [hrest, he, List.takeWhile_append_dropWhile]
      have hfree : ∀ x ∈ e, (x == 0) = false := by
        intro x hx
        have hne := List.mem_takeWhile_imp (he ▸ hx)
        simpa using hne
      -- the entries behind this one, as the next round sees them
      have hnext : envValue name ((buf.drop start).splitOn 0) = envValue name
          (e :: (buf.drop (start + e.length + 1)).splitOn 0) := by
        rw [← List.drop_drop (i := 1), hsplit]
        obtain hnil | ⟨a, r, hcons, ha⟩ := dropWhile_cases (· ≠ 0) (buf.drop start)
        · rw [hrest, hnil, List.append_nil, List.splitOn_eq_splitOnP, List.splitOnP_eq_singleton hfree,
            envValue_cons, envValue_cons]
          simp [envValue]
        · obtain rfl : a = 0 := by simpa using ha
          rw [hrest, hcons, List.splitOn_eq_splitOnP, List.splitOnP_append_cons_of_forall_mem hfree 0 (by simp)]
          rfl
      rw [if_pos hlt, hpos, hnext, envValue_cons]
      dsimp only
      by_cases hn : name ++ [61] <+: e
      · have hlen : name.length + 1 ≤ e.length := by simpa using hn.length_le
        have hvalue : (buf.drop (start + name.length + 1)).take (start + e.length - (start + name.length + 1)) =
            e.drop (name.length + 1) := by
          rw [Nat.add_assoc start, ← List.drop_drop, hsplit, List.drop_append_of_le_length hlen, Nat.add_sub_add_left]
          exact List.take_left' (by simp)
        rw [if_pos ((entry_named_iff hsplit).mpr hn), if_pos hn, hvalue]
        rfl
      · rw [if_neg (mt (entry_named_iff hsplit).mp hn), if_neg hn, ih (by omega)]
    · rw [if_neg hlt, List.drop_eq_nil_of_le (by omega)]
      simp

-- ---------------------------------------------------------------------------
-- Reading the configuration
-- ---------------------------------------------------------------------------

section
variable {σ : Type} {P : Platform σ} {w : World σ}

/-- Nothing has been read yet, and the environment file opens and is read whole:
`E`, which fits the scanner's buffer. -/
structure EnvReadable (P : Platform σ) (w : World σ) (E : Bytes) : Prop where
  fresh : w.cfg.loaded = false ∧ w.envLoaded = false
  fits : E.length ≤ maxEnvBuf - 1
  opens : 0 ≤ (P.os.openFile w.os (cstr "/proc/self/environ") 0 0).1
  reads : (P.os.read (P.os.openFile w.os (cstr "/proc/self/environ") 0 0).2
    (P.os.openFile w.os (cstr "/proc/self/environ") 0 0).1 (maxEnvBuf - 1)).1 = some E

theorem loadEnv_of_loaded (h : w.envLoaded = true) : (loadEnv P).run w = ((), w) := by
  unfold loadEnv
  rw [run_get_bind, if_pos h]
  rfl

theorem loadEnv_run (h : EnvReadable P w E) :
    ((loadEnv P).run w).2.envBuf = E ∧ ((loadEnv P).run w).2.envLoaded = true := by
  have htake : (some E).map (·.take (maxEnvBuf - 1)) = some E := by
    rw [Option.map_some, List.take_of_length_le h.fits]
  unfold loadEnv
  rw [run_get_bind, if_neg (by simp [h.fresh.2]), run_bind]
  have hread : ((sysRead P ((sysOpen P (cstr "/proc/self/environ") 0 0).run w).1 (maxEnvBuf - 1)).run
      ((sysOpen P (cstr "/proc/self/environ") 0 0).run w).2).1 = some E := by
    refine Eq.trans ?_ htake
    exact congrArg (Option.map (·.take (maxEnvBuf - 1))) h.reads
  rw [if_pos (show 0 ≤ ((sysOpen P (cstr "/proc/self/environ") 0 0).run w).1 from h.opens), run_bind, hread]
  exact ⟨rfl, rfl⟩

def EnvFirst (P : Platform σ) (x : Proc σ α) : Prop := ∀ w, x.run w = x.run ((loadEnv P).run w).2

theorem EnvFirst.bind {x : Proc σ α} {k : α → Proc σ β} (hx : EnvFirst P x) : EnvFirst P (x >>= k) := by
  intro w
  rw [run_bind, run_bind, hx w]

theorem loadEnv_loaded (w : World σ) : ((loadEnv P).run w).2.envLoaded = true := by
  unfold loadEnv
  rw [run_get_bind]
  by_cases hl : w.envLoaded = true
  · rw [if_pos hl]
    exact hl
  · rw [if_neg hl, run_bind]
    split
    · rfl
    · rfl

theorem loadEnv_envFirst : EnvFirst P (loadEnv P) := fun w => by
  rw [loadEnv_of_loaded (loadEnv_loaded w)]
  rfl

theorem readCfg_envFirst : EnvFirst P (readCfg P) := loadEnv_envFirst.bind.bind.bind

theorem envGet_run (h : w.envLoaded = true) (name : Bytes) (outSz : Nat) :
    (envGet P name outSz).run w = ((envValue (name.take 128) (w.envBuf.splitOn 0)).map (·.take (outSz - 1)), w) := by
  unfold envGet
  rw [run_bind, loadEnv_of_loaded h, run_get_bind, envScan_eq outSz (by omega)]
  rfl

theorem parseBoolEnv_run (h : w.envLoaded = true) (name : String) (default : Bool) :
    ((parseBoolEnv P name default).run w).2 = w := by
  unfold parseBoolEnv
  rw [run_bind, envGet_run h]
  dsimp only
  split
  · rfl
  · split
    · rfl
    · split <;> rfl

/-- A setting of at most `maxCfgStr - 1` bytes, as `env_get` returns it. -/
def setting (E : Bytes) (name : String) : Option Bytes :=
  (envValue ((cstr name).take 128) (E.splitOn 0)).map (·.take (maxCfgStr - 1))

theorem readCfg_run (h : w.envLoaded = true) :
    ((readCfg P).run w).1.modeTranslate = decide (setting w.envBuf "IPA_ABI_BRIDGE_MODE" = some (cstr "translate")) ∧
    ((readCfg P).run w).1.allow =
      copyCstr maxCfgStr ((setting w.envBuf "IPA_ABI_BRIDGE_ALLOW_IFACES").getD (cstr "eth0")) ∧
    ((readCfg P).run w).1.translate =
      copyCstr maxCfgStr ((setting w.envBuf "IPA_ABI_BRIDGE_TRANSLATE_IFACES").getD (cstr "")) := by
  unfold readCfg
  simp only [run_bind, parseBoolEnv_run h, envGet_run h]
  exact ⟨rfl, rfl, rfl⟩

theorem envValue_no_nul {E v : Bytes} (h : envValue name (E.splitOn 0) = some v) : 0 ∉ v := by
  obtain ⟨e, he, hv⟩ := List.exists_of_findSome?_eq_some h
  have hfree := not_mem_of_mem_splitOn he
  split at hv
  · cases hv
    exact fun hmem => hfree (List.mem_of_mem_drop hmem)
  · cases hv

theorem copyCstr_of_no_nul {v : Bytes} {size : Nat} (hz : 0 ∉ v) (hlen : v.length ≤ size - 1) :
    copyCstr size v = v := by
  have htext : cText v = v := List.takeWhile_eq_self_iff.mpr fun c hc => by
    simpa using fun h : c = 0 => hz (h ▸ hc)
  rw [copyCstr, htext, List.take_of_length_le hlen]

theorem setting_eq {E : Bytes} {name : String} (hname : (cstr name).length ≤ 128)
    (hfits : ∀ v, envValue (cstr name) (E.splitOn 0) = some v → v.length ≤ maxCfgStr - 1) :
    setting E name = envValue (cstr name) (E.splitOn 0) := by
  unfold setting
  rw [List.take_of_length_le hname]
  cases hv : envValue (cstr name) (E.splitOn 0) with
  | none => rfl
  | some v => rw [Option.map_some, List.take_of_length_le (hfits v hv)]

/-- A value cut to the length of its array is `translate` only if it was so
before: the text is shorter than the array. -/
theorem setting_mode_iff (E : Bytes) : setting E "IPA_ABI_BRIDGE_MODE" = some (cstr "translate") ↔
    envValue (cstr "IPA_ABI_BRIDGE_MODE") (E.splitOn 0) = some (cstr "translate") := by
  have hname : (cstr "IPA_ABI_BRIDGE_MODE").take 128 = cstr "IPA_ABI_BRIDGE_MODE" := by decide
  unfold setting
  rw [hname]
  cases envValue (cstr "IPA_ABI_BRIDGE_MODE") (E.splitOn 0) with
  | none => simp
  | some v =>
    rw [Option.map_some, Option.some_inj, Option.some_inj]
    constructor
    · intro h
      have hlen := congrArg List.length h
      rw [List.length_take, show (cstr "translate").length = 9 by decide, maxCfgStr] at hlen
      rwa [List.take_of_length_le (by simp only [maxCfgStr]; omega)] at h
    · rintro rfl
      decide

-- ---------------------------------------------------------------------------
-- The two lists
-- ---------------------------------------------------------------------------

/-- `name` is on the list `v`: the list is `*`, or `name` stands between its
commas. -/
def OnList (v name : Bytes) : Prop := v = cstr "*" ∨ name ∈ tokens 44 32 v

structure LoopsContained (E : Bytes) (c : BridgeCfg) (name : Bytes) : Prop where
  environ : E.length + 1 ≤ maxEnvBuf
  entry : Contained E (entryEnd E)
  entries : ∀ var outSz fuel, E.length < fuel →
    envScan E var outSz fuel 0 = envScan E var outSz (E.length + 1) 0
  value : ∀ var outSz v, 0 < outSz → envScan E var outSz (E.length + 1) 0 = some v → v.length + 1 ≤ outSz
  lists : ∀ csv ∈ [c.allow, c.translate], csv.length + 1 ≤ maxCfgStr ∧ Contained csv (skipSep csv) ∧
    Contained csv (tokenEnd csv) ∧
    (∀ start len, start + len ≤ csv.length → trimLen csv start len ≤ len) ∧
    ∀ fuel, csv.length < fuel → csvScan csv name fuel 0 = csvScan csv name (csv.length + 1) 0

theorem copyCstr_length (hsize : 0 < size) (src : Bytes) : (copyCstr size src).length + 1 ≤ size := by
  rw [copyCstr, List.length_take]
  omega

theorem copyCstr_no_nul (size : Nat) (src : Bytes) : 0 ∉ copyCstr size src := by
  intro h
  have hmem := List.mem_takeWhile_imp (List.mem_of_mem_take h)
  simp at hmem

theorem list_contained {csv name : Bytes} (hz : 0 ∉ csv) (hname : name ≠ []) :
    Contained csv (skipSep csv) ∧ Contained csv (tokenEnd csv) ∧
    (∀ start len, start + len ≤ csv.length → trimLen csv start len ≤ len) ∧
    ∀ fuel, csv.length < fuel → csvScan csv name fuel 0 = csvScan csv name (csv.length + 1) 0 := by
  refine ⟨(skipSep_scans csv).contained rfl, (tokenEnd_scans csv).contained rfl, fun start len h => ?_,
    fun fuel hfuel => ?_⟩
  · exact (trimLen_spec csv start (by rw [List.length_drop]; omega)).1
  · rw [Bool.eq_iff_iff, csvScan_iff hz hname (by omega), csvScan_iff hz hname (by omega)]

theorem loops_contained {E : Bytes} {c : BridgeCfg} (hE : E.length ≤ maxEnvBuf - 1) (hname : name ≠ [])
    (hallow : c.allow = copyCstr maxCfgStr a) (htranslate : c.translate = copyCstr maxCfgStr t) :
    LoopsContained E c name := by
  refine ⟨by simp only [maxEnvBuf] at hE ⊢; omega, (entryEnd_scans E).contained (by simp),
    fun var outSz fuel hfuel => ?_, fun var outSz v hsz hv => ?_, ?_⟩
  · rw [envScan_eq outSz (by omega), envScan_eq outSz (by omega)]
  · rw [envScan_eq outSz (by omega), Option.map_eq_some_iff] at hv
    obtain ⟨u, -, rfl⟩ := hv
    rw [List.length_take]
    omega
  · intro csv hcsv
    obtain ⟨src, rfl⟩ : ∃ src, csv = copyCstr maxCfgStr src := by
      obtain rfl | rfl : csv = c.allow ∨ csv = c.translate := by simpa using hcsv
      · exact ⟨a, hallow⟩
      · exact ⟨t, htranslate⟩
    exact ⟨copyCstr_length (by decide) src, list_contained (copyCstr_no_nul _ src) hname⟩

theorem configured_fields (h : EnvReadable P w E) :
    (configured P w).cfg.modeTranslate = decide (setting E "IPA_ABI_BRIDGE_MODE" = some (cstr "translate")) ∧
    (configured P w).cfg.allow =
      copyCstr maxCfgStr ((setting E "IPA_ABI_BRIDGE_ALLOW_IFACES").getD (cstr "eth0")) ∧
    (configured P w).cfg.translate =
      copyCstr maxCfgStr ((setting E "IPA_ABI_BRIDGE_TRANSLATE_IFACES").getD (cstr "")) := by
  have hcfg : (configured P w).cfg = ((readCfg P).run ((loadEnv P).run w).2).1 := by
    unfold configured loadCfg
    rw [run_get_bind, if_neg (by simp [h.fresh.1]), run_bind, run_modify, readCfg_envFirst w]
  obtain ⟨hbuf, hloaded⟩ := loadEnv_run h
  rw [hcfg, ← hbuf]
  exact readCfg_run hloaded

end

theorem tokens_eth0 : tokens 44 32 (cstr "eth0") = [cstr "eth0"] := by decide +kernel

/-- The configuration read from the environment block `E` allows and translates
the interfaces `E` names. -/
theorem allowlist_means_environment {σ : Type} (P : Platform σ) (w : World σ) (E : Bytes)
    (h : EnvReadable P w E)
    (hallow : ∀ v, envValue (cstr "IPA_ABI_BRIDGE_ALLOW_IFACES") (E.splitOn 0) = some v → v.length ≤ 255)
    (htranslate : ∀ v, envValue (cstr "IPA_ABI_BRIDGE_TRANSLATE_IFACES") (E.splitOn 0) = some v → v.length ≤ 255)
    (m : ByteMem.Mem) (p : Nat) (hname : nameAt m p ≠ []) :
    ((configured P w).cfg.ifaceAllowed (nameAt m p) = true ↔
      (∃ v, envValue (cstr "IPA_ABI_BRIDGE_ALLOW_IFACES") (E.splitOn 0) = some v ∧ OnList v (nameAt m p)) ∨
      envValue (cstr "IPA_ABI_BRIDGE_ALLOW_IFACES") (E.splitOn 0) = none ∧ nameAt m p = cstr "eth0") ∧
    ((configured P w).cfg.ifaceTranslateAllowed (nameAt m p) = true ↔
      envValue (cstr "IPA_ABI_BRIDGE_MODE") (E.splitOn 0) = some (cstr "translate") ∧
      ∃ v, envValue (cstr "IPA_ABI_BRIDGE_TRANSLATE_IFACES") (E.splitOn 0) = some v ∧ OnList v (nameAt m p)) ∧
    LoopsContained E (configured P w).cfg (nameAt m p) := by
  obtain ⟨hmode, ha, ht⟩ := configured_fields h
  refine ⟨?_, ?_, loops_contained h.fits hname ha ht⟩
  · rw [BridgeCfg.ifaceAllowed, ha, setting_eq (by decide) hallow]
    cases hv : envValue (cstr "IPA_ABI_BRIDGE_ALLOW_IFACES") (E.splitOn 0) with
    | none =>
      rw [Option.getD_none, copyCstr_of_no_nul (by decide) (by decide), csvHas_iff (by decide) hname, tokens_eth0]
      simp [show cstr "eth0" ≠ cstr "*" by decide]
    | some v =>
      have hz := envValue_no_nul hv
      rw [Option.getD_some, copyCstr_of_no_nul hz (hallow v hv), csvHas_iff hz hname]
      simp [OnList]
  · rw [BridgeCfg.ifaceTranslateAllowed, Bool.and_eq_true_iff, hmode, decide_eq_true_eq, setting_mode_iff, ht,
      setting_eq (by decide) htranslate]
    refine and_congr_right fun _ => ?_
    cases hv : envValue (cstr "IPA_ABI_BRIDGE_TRANSLATE_IFACES") (E.splitOn 0) with
    | none =>
      rw [Option.getD_none, copyCstr_of_no_nul (by decide) (by decide)]
      simp [csvHas, cstr]
    | some v =>
      have hz := envValue_no_nul hv
      rw [Option.getD_some, copyCstr_of_no_nul hz (htranslate v hv), csvHas_iff hz hname]
      simp [OnList]

def sampleEnviron : Bytes :=
  cstr "HOME=/" ++ [0] ++ cstr "IPA_ABI_BRIDGE_MODE=log" ++ [0] ++
    cstr "IPA_ABI_BRIDGE_ALLOW_IFACES=eth0 , rmnet_data0"

def samplePlatform : Platform Unit where
  uapi := uapi13900
  os := { fixedOs 0 id none with
    openFile := fun _ _ _ _ => (3, ())
    read := fun _ _ _ => (some sampleEnviron, ()) }
  buf := 0

def sampleWorld : World Unit := { mem := fun a => (cstr "rmnet_data0").getD a 0, os := () }

theorem allowlist_means_environment_sample :
    EnvReadable samplePlatform sampleWorld sampleEnviron ∧
    (configured samplePlatform sampleWorld).cfg.ifaceAllowed (nameAt sampleWorld.mem 0) = true := by
  have hE : EnvReadable samplePlatform sampleWorld sampleEnviron :=
    ⟨⟨rfl, rfl⟩, by decide +kernel, by decide +kernel, rfl⟩
  have hallow : envValue (cstr "IPA_ABI_BRIDGE_ALLOW_IFACES") (sampleEnviron.splitOn 0) =
      some (cstr "eth0 , rmnet_data0") := by decide +kernel
  have htranslate : envValue (cstr "IPA_ABI_BRIDGE_TRANSLATE_IFACES") (sampleEnviron.splitOn 0) = none := by
    decide +kernel
  refine ⟨hE, (allowlist_means_environment samplePlatform sampleWorld sampleEnviron hE (fun v hv => ?_)
    (fun v hv => ?_) sampleWorld.mem 0 (by decide +kernel)).1.mpr (.inl ⟨_, hallow, .inr (by decide +kernel)⟩)⟩
  · rw [hallow] at hv
    cases hv
    decide +kernel
  · rw [htranslate] at hv
    cases hv

end IpaOffload.Bridge
