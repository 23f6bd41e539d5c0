import IpaOffload.Ioss.Of

/-!
# What the parser makes of a tree

When no allocation fails, the parser computes a function of the tree:
`dtChannels`, the channels it finds there. Each of its steps either adds a
channel or fails and adds none, so the specification of a step is the channel
it finds, and that of an attempt with a fallback is the first of the two.
-/

namespace IpaOffload.Ioss

open DeviceTree Fallible

-- ---------------------------------------------------------------------------
-- What a node stores
-- ---------------------------------------------------------------------------

structure Stores (n : Node) (ch : Channel) : Prop where
  direction : ch.direction = .rx ∧ n.has "qcom,dir-rx" = true ∨
    ch.direction = .tx ∧ n.has "qcom,dir-rx" = false ∧ n.has "qcom,dir-tx" = true
  ringSize : n.readU32 "qcom,ring-size" = some ch.ringSize
  buffSize : n.readU32 "qcom,buff-size" = some ch.buffSize
  modCountMin : n.readU32 "qcom,mod-count-min" = some ch.modCountMin
  modCountMax : n.readU32 "qcom,mod-count-max" = some ch.modCountMax
  modUsecsMin : n.readU32 "qcom,mod-usecs-min" = some ch.modUsecsMin
  modUsecsMax : n.readU32 "qcom,mod-usecs-max" = some ch.modUsecsMax
  filterTypes : ch.filterTypes =
    (if n.has "qcom,rx-filter-be" then rxfBe else 0) ||| (if n.has "qcom,rx-filter-ip" then rxfIp else 0)

theorem readKey_ok {n : Node} {key : String} {v : UInt32} : readKey n key = .ok v ↔ n.readU32 key = some v := by
  unfold readKey
  cases n.readU32 key with
  | none => simp
  | some w => simp

theorem readDirection_ok {n : Node} {d : Direction} :
    readDirection n = .ok d ↔ d = .rx ∧ n.has "qcom,dir-rx" = true ∨
      d = .tx ∧ n.has "qcom,dir-rx" = false ∧ n.has "qcom,dir-tx" = true := by
  unfold readDirection
  cases n.has "qcom,dir-rx" <;> cases n.has "qcom,dir-tx" <;> cases d <;> simp

theorem readChannel_ok {n : Node} {ch : Channel} : readChannel n = .ok ch ↔ Stores n ch := by
  unfold readChannel
  simp only [bind_eq_ok, readKey_ok, readDirection_ok]
  constructor
  · rintro ⟨d, hd, r, hr, b, hb, c₁, h₁, c₂, h₂, u₁, h₃, u₂, h₄, heq⟩
    cases heq
    exact ⟨hd, hr, hb, h₁, h₂, h₃, h₄, rfl⟩
  · rintro ⟨hd, hr, hb, h₁, h₂, h₃, h₄, hf⟩
    refine ⟨_, hd, _, hr, _, hb, _, h₁, _, h₂, _, h₃, _, h₄, ?_⟩
    cases ch
    cases hf
    rfl

theorem toOption_readChannel {n : Node} {ch : Channel} : (readChannel n).toOption = some ch ↔ Stores n ch := by
  rw [← readChannel_ok]
  cases readChannel n <;> simp [Except.toOption]

-- ---------------------------------------------------------------------------
-- Steps
-- ---------------------------------------------------------------------------

def Env.unfailing (env : Env) : Env := { env with alloc := fun _ => true }

def Iface.builtIn (s : Iface) : Prop := Message.builtIn ∈ s.log

def Finds (x : Parse Unit) (found : Option Channel) : Prop :=
  ∀ s, ∃ s', exec x s = (match found with | some _ => .ok () | none => .error .inval, s') ∧
    s'.channels = s.channels ++ found.toList ∧ (s'.builtIn ↔ s.builtIn)

theorem Finds.fail : Finds (throw .inval) none :=
  fun s => ⟨s, rfl, by simp, Iff.rfl⟩

theorem Finds.add (ch : Channel) : Finds (addChannel ch) (some ch) :=
  fun _ => ⟨_, rfl, rfl, Iff.rfl⟩

theorem exec_say (m : Message) (s : Iface) : exec (say m) s = (.ok (), { s with log := s.log ++ [m] }) := rfl

theorem Finds.say {x : Parse Unit} (hx : Finds x found) (hm : m ≠ .builtIn) : Finds (say m >>= fun _ => x) found := by
  intro s
  obtain ⟨s', hexec, hch, hlog⟩ := hx { s with log := s.log ++ [m] }
  refine ⟨s', ?_, hch, hlog.trans ?_⟩
  · exact (exec_bind_of_ok (exec_say m s)).trans hexec
  · simp [Iface.builtIn, Ne.symm hm]

theorem Finds.orElse {x y : Parse Unit} {a b : Option Channel} (hx : Finds x a) (hy : Finds y b) :
    Finds (tryCatch x fun _ => y) (a.or b) := by
  intro s
  obtain ⟨s₁, hexec, hch, hlog⟩ := hx s
  rw [exec_tryCatch, hexec]
  cases a with
  | some ch => exact ⟨s₁, rfl, hch, hlog⟩
  | none =>
    obtain ⟨s₂, hexec₂, hch₂, hlog₂⟩ := hy s₁
    refine ⟨s₂, hexec₂, ?_, hlog₂.trans hlog⟩
    rw [hch₂, hch]
    simp

section
variable (env : Env) (t : Tree) (np : Node)

theorem exec_kzalloc (s : Iface) :
    exec (kzalloc env.unfailing) s = (.ok true, { s with allocs := s.allocs + 1 }) := rfl

theorem Finds.alloc {x : Parse Unit} (hx : Finds x found) (e : Errno) :
    Finds (kzalloc env.unfailing >>= fun b => if (!b) = true then throw e else x) found := by
  intro s
  obtain ⟨s', hexec, hch, hlog⟩ := hx { s with allocs := s.allocs + 1 }
  refine ⟨s', ?_, hch, hlog⟩
  rw [exec_bind_of_ok (exec_kzalloc env s)]
  exact hexec

theorem iossOfParseChannel_finds (n : Node) :
    Finds (iossOfParseChannel env.unfailing n) (readChannel n).toOption := by
  unfold iossOfParseChannel
  refine Finds.alloc env (Finds.alloc env ?_ _) _
  cases hread : readChannel n with
  | ok ch => exact Finds.add ch
  | error message =>
    cases message with
    | none => exact Finds.fail
    | some key => exact Finds.fail.say (by simp)

def childChannel (i : Nat) : Option Channel :=
  (iossOfFindFallbackChannel t np i).bind fun child => (readChannel child).toOption

theorem parseOrFail_finds (i : Nat) (n : Node) : Finds (parseOrFail env.unfailing i n) (readChannel n).toOption := by
  have h := (iossOfParseChannel_finds env n).orElse (Finds.fail.say (m := .channelFailed i) (by simp))
  rwa [Option.or_none] at h

/-- The channel the loop body finds: at the phandle's node if that is a channel
node, with a second try at another child, and otherwise at a child. -/
def pick (i : Nat) : Option Channel :=
  match ofParsePhandle env t np "qcom,ioss_channels" i with
  | none => childChannel t np i
  | some n =>
    if isChannelNode n then
      (readChannel n).toOption.or
        (match iossOfFindFallbackChannel t np i with
          | some child => if child.id ≠ n.id then (readChannel child).toOption else none
          | none => none)
    else childChannel t np i

theorem parseChild_finds (i : Nat) :
    Finds (match iossOfFindFallbackChannel t np i with
      | none => do
        say (.noFallback i)
        throw .inval
      | some fallback => do
        say (.childFallback i)
        parseOrFail env.unfailing i fallback) (childChannel t np i) := by
  unfold childChannel
  cases iossOfFindFallbackChannel t np i with
  | none => exact Finds.fail.say (by simp)
  | some child => exact (parseOrFail_finds env i child).say (by simp)

theorem parseEntry_finds (i : Nat) : Finds (parseEntry env.unfailing t np i) (pick env t np i) := by
  unfold parseEntry channelByPhandle pick
  rw [show ofParsePhandle env.unfailing t np "qcom,ioss_channels" i =
    ofParsePhandle env t np "qcom,ioss_channels" i from rfl]
  cases ofParsePhandle env t np "qcom,ioss_channels" i with
  | none => exact parseChild_finds env t np i
  | some n =>
    by_cases hname : isChannelNode n = true
    · simp only [if_pos hname]
      refine (iossOfParseChannel_finds env n).orElse ?_
      cases iossOfFindFallbackChannel t np i with
      | none => exact Finds.fail.say (by simp)
      | some child =>
        by_cases hid : child.id ≠ n.id
        · simp only [if_pos hid]
          exact (parseOrFail_finds env i child).say (by simp)
        · simp only [if_neg hid]
          exact Finds.fail.say (by simp)
    · simp only [if_neg hname]
      exact (parseChild_finds env t np i).say (by simp)

-- ---------------------------------------------------------------------------
-- The device
-- ---------------------------------------------------------------------------

def picks (i : Nat) : (count : Nat) → Option (List Channel)
  | 0 => some []
  | count + 1 => (pick env t np i).bind fun ch => (picks (i + 1) count).map (ch :: ·)

def FindsAll (x : Parse Unit) (found : Option (List Channel)) : Prop :=
  ∀ s, ∃ s', exec x s = (match found with | some _ => .ok () | none => .error .inval, s') ∧
    (∀ chs, found = some chs → s'.channels = s.channels ++ chs) ∧ (s'.builtIn ↔ s.builtIn)

theorem parseEntries_finds (i count : Nat) :
    FindsAll (parseEntries env.unfailing t np i count) (picks env t np i count) := by
  induction count generalizing i with
  | zero =>
    intro s
    refine ⟨s, rfl, ?_, Iff.rfl⟩
    rintro chs h
    cases h
    simp
  | succ count ih =>
    intro s
    obtain ⟨s₁, hexec, hch, hlog⟩ := parseEntry_finds env t np i s
    obtain ⟨s₂, hexec₂, hch₂, hlog₂⟩ := ih (i + 1) s₁
    unfold parseEntries picks
    cases hpick : pick env t np i with
    | none =>
      rw [hpick] at hexec
      exact ⟨s₁, exec_bind_of_error hexec, nofun, hlog⟩
    | some ch =>
      rw [hpick] at hexec hch
      refine ⟨s₂, ?_, ?_, hlog₂.trans hlog⟩
      · rw [exec_bind_of_ok hexec, hexec₂]
        cases picks env t np (i + 1) count <;> rfl
      · intro chs h
        obtain ⟨rest, hrest, rfl⟩ := Option.map_eq_some_iff.mp h
        rw [hch₂ rest hrest, hch]
        simp

def nodeChannels : Option (List Channel) :=
  (np.readU32 "qcom,ioss_instance").bind fun _ =>
    (np.phandles "qcom,ioss_channels").bind fun phandles => picks env t np 0 phandles.length

theorem parseV2Body_finds : FindsAll (parseV2Body env.unfailing t np) (nodeChannels env t np) := by
  intro s
  unfold parseV2Body nodeChannels
  cases np.readU32 "qcom,ioss_instance" with
  | none =>
    refine ⟨{ s with log := s.log ++ [.keyFailed "qcom,ioss_instance"] }, rfl, nofun, ?_⟩
    simp [Iface.builtIn]
  | some instanceId =>
    cases np.phandles "qcom,ioss_channels" with
    | none =>
      refine ⟨{ s with instanceId, log := s.log ++ [.keyFailed "qcom,ioss_channels"] }, rfl, nofun, ?_⟩
      simp [Iface.builtIn]
    | some phandles =>
      obtain ⟨s₁, hexec, hch, hlog⟩ := parseEntries_finds env t np 0 phandles.length { s with instanceId }
      simp only [Option.bind_some]
      cases hpicks : picks env t np 0 phandles.length with
      | none =>
        rw [hpicks] at hexec
        refine ⟨s₁, ?_, nofun, hlog⟩
        rw [exec_bind_of_ok (exec_modify _ _)]
        exact exec_bind_of_error hexec
      | some chs =>
        rw [hpicks] at hexec
        refine ⟨{ s₁ with
          wolPhy := s₁.wolPhy || np.has "qcom,ioss-wol-phy"
          wolMagic := s₁.wolMagic || np.has "qcom,ioss-wol-magic" }, ?_, ?_, hlog⟩
        · rw [exec_bind_of_ok (exec_modify _ _), exec_bind_of_ok hexec]
          rfl
        · rintro chs' h
          cases h
          exact hch chs hpicks

theorem iossOfParseV2_finds : FindsAll (iossOfParseV2 env.unfailing t np) (nodeChannels env t np) := by
  intro s
  obtain ⟨s₁, hexec, hch, hlog⟩ := parseV2Body_finds env t np { s with allocs := s.allocs + 1, priv := true }
  unfold iossOfParseV2
  rw [exec_bind_of_ok (exec_kzalloc env s)]
  simp only [Bool.not_true, Bool.false_eq_true, ↓reduceIte]
  rw [exec_bind_of_ok (exec_modify _ _), exec_tryCatch, hexec]
  cases hfound : nodeChannels env t np with
  | none => exact ⟨{ s₁ with channels := [], priv := false }, rfl, nofun, hlog⟩
  | some chs =>
    refine ⟨s₁, rfl, ?_, hlog⟩
    rintro chs' h
    cases h
    exact hch chs hfound

def dtChannels (idev : Idev) : Option (List Channel) :=
  idev.np.bind fun np =>
    (ofParsePhandle env t np "qcom,ioss" 0).bind fun root =>
      if env.pdevOf root = some idev.root ∧ np.compatible "qcom,ioss-v2-device" then nodeChannels env t np else none

/-- `ioss_of_parse` on an interface without channels ends with these channels,
and the built-in configuration is not what they are. -/
def ParsesTo (idev : Idev) (chs : List Channel) : Prop :=
  ∃ s', exec (iossOfParse env t idev) {} = (.ok (), s') ∧ s'.channels = chs ∧ ¬ s'.builtIn

theorem builtIn_of_fallback {s : Iface}
    (h : exec (iossOfParseR8125Fallback env.unfailing) s = (.ok (), s')) : s'.builtIn := by
  cases h
  simp [Iface.builtIn]

theorem leaves_iff {idev : Idev} {x : Parse Unit} {s : Iface} {chs : List Channel} (hx : ∀ s, (exec x s).1 ≠ .ok ()) :
    (∃ s', exec (if iossIsR8125PciDev idev then iossOfParseR8125Fallback env.unfailing else x) s = (.ok (), s') ∧
      s'.channels = chs ∧ ¬ s'.builtIn) ↔ none = some chs := by
  refine ⟨?_, nofun⟩
  rintro ⟨s', h, -, hb⟩
  split at h
  · exact absurd (builtIn_of_fallback env h) hb
  · exact absurd (congrArg Prod.fst h) (hx s)

theorem parsesTo_iff (idev : Idev) (chs : List Channel) :
    ParsesTo env.unfailing t idev chs ↔ dtChannels env t idev = some chs := by
  unfold ParsesTo iossOfParse dtChannels
  cases idev.np with
  | none => exact leaves_iff env fun _ => nofun
  | some np =>
    simp only [Option.bind_some]
    rw [show ofParsePhandle env.unfailing t np "qcom,ioss" 0 = ofParsePhandle env t np "qcom,ioss" 0 from rfl]
    cases ofParsePhandle env t np "qcom,ioss" 0 with
    | none => exact leaves_iff env fun _ => nofun
    | some root =>
      simp only [Option.bind_some]
      rw [show env.unfailing.pdevOf root = env.pdevOf root from rfl]
      cases env.pdevOf root with
      | none => exact ⟨nofun, fun h => by simp at h⟩
      | some pdev =>
        by_cases hroot : idev.root = pdev
        · subst hroot
          simp only [ne_eq, not_true_eq_false, if_false, true_and, parseMatch]
          by_cases hcompat : np.compatible "qcom,ioss-v2-device" = true
          · simp only [hcompat, ↓reduceIte]
            obtain ⟨s₁, hexec, hch, hlog⟩ := iossOfParseV2_finds env t np {}
            rw [exec_tryCatch, hexec]
            cases hfound : nodeChannels env t np with
            | none => exact leaves_iff env fun _ => nofun
            | some chs' =>
              have hchs := hch chs' hfound
              constructor
              · rintro ⟨s', h, rfl, -⟩
                cases h
                rw [hchs]
                rfl
              · rintro h
                cases h
                exact ⟨s₁, rfl, hchs, fun hb => by simpa [Iface.builtIn] using hlog.mp hb⟩
          · simp only [hcompat, Bool.false_eq_true, ↓reduceIte]
            exact leaves_iff env fun _ => nofun
        · have hne : ¬ pdev = idev.root := fun h => hroot h.symm
          simp only [ne_eq, hroot, not_false_eq_true, if_true, Option.some.injEq, hne, false_and, if_false]
          exact ⟨nofun, nofun⟩

end

end IpaOffload.Ioss
