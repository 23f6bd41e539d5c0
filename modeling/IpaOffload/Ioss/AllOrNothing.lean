import IpaOffload.Lib.Triple
import IpaOffload.Ioss.Injected

/-!
# What the parser leaves when memory runs out

Any allocation may fail here. An attempt at a channel adds one channel or
fails without a trace, and so does an entry with all its attempts; a device
whose entries do not all lead to a channel is left without any, which is what
the built-in configuration then starts from.
-/

namespace IpaOffload.Ioss

open DeviceTree Fallible

variable (env : Env) (t : Tree) (np : Node)

def Has (chs : List Channel) (s : Iface) : Prop := s.channels = chs

/-- An interface nothing has been parsed into. -/
structure Blank (s : Iface) : Prop where
  channels : s.channels = []
  priv : s.priv = false

variable {chs : List Channel} {P E : Iface → Prop}

-- ---------------------------------------------------------------------------
-- Single steps
-- ---------------------------------------------------------------------------

theorem say_spec (m : Message) : Triple (Has chs) (say m) (fun _ => Has chs) E := .modify fun _ hs => hs

theorem addChannel_spec (ch : Channel) : Triple (Has chs) (addChannel ch) (fun _ => Has (chs ++ [ch])) E := by
  refine .modify fun s hs => ?_
  unfold Has at *
  rw [hs]

theorem kzalloc_guard {x : Parse Unit} {Q : Unit → Iface → Prop} (e : Errno) (hx : Triple (Has chs) x Q (Has chs)) :
    Triple (Has chs) (kzalloc env >>= fun b => if (!b) = true then throw e else x) Q (Has chs) := by
  refine .bind (Q := fun _ => Has chs) (fun _ hs => hs) fun b => ?_
  exact .ite (fun _ => .throw fun _ hs => hs) fun _ => hx

theorem say_throw (m : Message) (e : Errno) {Q : Unit → Iface → Prop} :
    Triple (Has chs) (do say m; throw e) Q (Has chs) :=
  .bind (say_spec m) fun _ => .throw fun _ hs => hs

-- ---------------------------------------------------------------------------
-- One entry
-- ---------------------------------------------------------------------------

def Grown (chs : List Channel) (R : Channel → Prop) (s : Iface) : Prop := ∃ ch, R ch ∧ Has (chs ++ [ch]) s

theorem iossOfParseChannel_adds (n : Node) :
    Triple (Has chs) (iossOfParseChannel env n) (fun _ => Grown chs (Stores n)) (Has chs) := by
  unfold iossOfParseChannel
  refine kzalloc_guard env _ (kzalloc_guard env _ ?_)
  cases hread : readChannel n with
  | ok ch => exact (addChannel_spec ch).post fun _ _ hs => ⟨ch, readChannel_ok.mp hread, hs⟩
  | error message =>
    cases message with
    | none => exact .throw fun _ => id
    | some key => exact say_throw _ _

/-- The node of the entry's phandle, if that is a channel node by its name, or
the child that stands in for it. -/
def Source (i : Nat) (n : Node) : Prop :=
  ofParsePhandle env t np "qcom,ioss_channels" i = some n ∧ isChannelNode n = true ∨
    iossOfFindFallbackChannel t np i = some n

def FromEntry (i : Nat) (ch : Channel) : Prop := ∃ n, Source env t np i n ∧ Stores n ch

section
variable {env t np} {i : Nat} {n : Node}

theorem parseSource_adds (hn : Source env t np i n) :
    Triple (Has chs) (iossOfParseChannel env n) (fun _ => Grown chs (FromEntry env t np i)) (Has chs) := by
  refine (iossOfParseChannel_adds env n).post ?_
  rintro _ s ⟨ch, hch, hs⟩
  exact ⟨ch, ⟨n, hn, hch⟩, hs⟩

theorem parseOrFail_adds (hn : Source env t np i n) :
    Triple (Has chs) (parseOrFail env i n) (fun _ => Grown chs (FromEntry env t np i)) (Has chs) :=
  (parseSource_adds hn).tryCatch fun _ => say_throw _ _

end

theorem channelByPhandle_spec (i : Nat) :
    Triple (Has chs) (channelByPhandle env t np i)
      (fun n? s => Has chs s ∧ ∀ n, n? = some n → Source env t np i n) E := by
  unfold channelByPhandle
  cases hn : ofParsePhandle env t np "qcom,ioss_channels" i with
  | none => exact .pure fun _ hs => ⟨hs, nofun⟩
  | some n =>
    refine .ite (fun hname => .pure fun _ hs => ⟨hs, ?_⟩) fun _ => ?_
    · rintro _ ⟨⟩
      exact .inl ⟨hn, hname⟩
    · exact .bind (say_spec _) fun _ => .pure fun _ hs => ⟨hs, nofun⟩

theorem parseEntry_adds (i : Nat) :
    Triple (Has chs) (parseEntry env t np i) (fun _ => Grown chs (FromEntry env t np i)) (Has chs) := by
  unfold parseEntry
  refine .bind (channelByPhandle_spec env t np i) fun n? => ?_
  cases n? with
  | none =>
    refine Triple.pre ?_ fun _ hs => hs.1
    cases hfall : iossOfFindFallbackChannel t np i with
    | none => exact say_throw _ _
    | some child => exact .bind (say_spec _) fun _ => parseOrFail_adds (.inr hfall)
  | some n =>
    rintro s ⟨hs, hn⟩
    refine (parseSource_adds (hn n rfl)).tryCatch (fun _ => ?_) s hs
    cases hfall : iossOfFindFallbackChannel t np i with
    | none => exact say_throw _ _
    | some child =>
      exact .ite (fun _ => .bind (say_spec _) fun _ => parseOrFail_adds (.inr hfall)) fun _ => say_throw _ _

-- ---------------------------------------------------------------------------
-- The device
-- ---------------------------------------------------------------------------

def FromEntries (is : List Nat) (chs : List Channel) : Prop := List.Forall₂ (FromEntry env t np) is chs

theorem parseEntries_adds (i count : Nat) :
    Triple (Has chs) (parseEntries env t np i count)
      (fun _ s => ∃ new, FromEntries env t np (List.range' i count) new ∧ Has (chs ++ new) s) fun _ => True := by
  induction count generalizing i chs with
  | zero =>
    refine .pure fun s hs => ⟨[], .nil, ?_⟩
    rwa [List.append_nil]
  | succ count ih =>
    refine .bind ((parseEntry_adds env t np i).fails fun _ _ => trivial) fun _ => ?_
    rintro s ⟨ch, hch, hs⟩
    refine (ih (i + 1)).post ?_ s hs
    rintro _ s' ⟨new, hnew, hs'⟩
    refine ⟨ch :: new, .cons hch hnew, ?_⟩
    rwa [List.append_assoc] at hs'

def FromNode (chs : List Channel) : Prop :=
  ∃ phandles, np.phandles "qcom,ioss_channels" = some phandles ∧
    FromEntries env t np (List.range phandles.length) chs

theorem parseV2Body_adds :
    Triple (Has []) (parseV2Body env t np) (fun _ s => FromNode env t np s.channels) fun _ => True := by
  unfold parseV2Body
  cases np.readU32 "qcom,ioss_instance" with
  | none => exact (say_throw _ _).fails fun _ _ => trivial
  | some instanceId =>
    refine .bind (Q := fun _ => Has []) (.modify fun _ => id) fun _ => ?_
    cases hph : np.phandles "qcom,ioss_channels" with
    | none => exact (say_throw _ _).fails fun _ _ => trivial
    | some phandles =>
      refine .bind (parseEntries_adds env t np 0 phandles.length) fun _ => .modify ?_
      rintro s ⟨new, hnew, hs⟩
      refine ⟨phandles, hph, ?_⟩
      rw [List.range_eq_range']
      exact hs ▸ hnew

/-- Label `err` of both parsers. -/
theorem cleanup_blank (e : Errno) {Q : Unit → Iface → Prop} :
    Triple P (do
      iossOfFreeChannels
      modify fun s => { s with priv := false }
      throw e) Q Blank := by
  refine .bind (Q := fun _ => Has []) (.modify fun _ _ => rfl) fun _ => ?_
  refine .bind (Q := fun _ => Blank) (.modify fun _ hs => ⟨hs, rfl⟩) fun _ => ?_
  exact .throw fun _ => id

/-- The private part of the interface is allocated first, or there is none. -/
theorem priv_guard {x : Parse Unit} {Q : Unit → Iface → Prop} (hx : Triple (Has []) x Q Blank) :
    Triple Blank (do
      let priv ← kzalloc env
      modify fun s => { s with priv }
      if !priv then throw .noMem
      x) Q Blank := by
  refine .bind (Q := fun _ => Has []) (fun _ hs => hs.channels) fun priv => ?_
  refine .bind (Q := fun _ s => Has [] s ∧ s.priv = priv) (.modify fun _ hs => ⟨hs, rfl⟩) fun _ => ?_
  cases priv with
  | false => exact .throw_bind fun _ hs => ⟨hs.1, hs.2⟩
  | true => exact hx.pre fun _ hs => hs.1

theorem iossOfParseV2_spec :
    Triple Blank (iossOfParseV2 env t np) (fun _ s => FromNode env t np s.channels) Blank :=
  priv_guard env ((parseV2Body_adds env t np).tryCatch fun _ => cleanup_blank _)

theorem iossOfAddFallbackChannel_adds (direction : Direction) :
    Triple (Has chs) (iossOfAddFallbackChannel env direction) (fun _ => Has (chs ++ [fallbackChannel direction]))
      (Has chs) :=
  kzalloc_guard env _ (kzalloc_guard env _ (addChannel_spec _))

theorem fallbackPair_adds :
    Triple (Has []) (do
      iossOfAddFallbackChannel env .rx
      iossOfAddFallbackChannel env .tx
      say .builtIn) (fun _ => Has [fallbackChannel .rx, fallbackChannel .tx]) fun _ => True := by
  refine .bind ((iossOfAddFallbackChannel_adds env .rx).fails fun _ _ => trivial) fun _ => ?_
  refine .bind ((iossOfAddFallbackChannel_adds env .tx).fails fun _ _ => trivial) fun _ => ?_
  exact say_spec _

theorem iossOfParseR8125Fallback_spec :
    Triple Blank (iossOfParseR8125Fallback env) (fun _ => Has [fallbackChannel .rx, fallbackChannel .tx]) Blank := by
  refine priv_guard env (.bind (Q := fun _ => Has []) (.modify fun _ => id) fun _ => ?_)
  exact (fallbackPair_adds env).tryCatch fun rc => cleanup_blank rc

-- ---------------------------------------------------------------------------
-- `ioss_of_parse`
-- ---------------------------------------------------------------------------

def Parsed (idev : Idev) (chs : List Channel) : Prop :=
  (∃ np, idev.np = some np ∧ FromNode env t np chs) ∨ chs = [fallbackChannel .rx, fallbackChannel .tx]

theorem orBuiltIn_spec (idev : Idev) {x : Parse Unit} (hx : Triple Blank x (fun _ _ => False) Blank) :
    Triple Blank (if iossIsR8125PciDev idev then iossOfParseR8125Fallback env else x)
      (fun _ s => Parsed env t idev s.channels) Blank := by
  refine .ite (fun _ => ?_) fun _ => hx.post fun _ _ => False.elim
  exact (iossOfParseR8125Fallback_spec env).post fun _ _ hs => .inr hs

theorem say_throw_blank (m : Message) (e : Errno) {Q : Unit → Iface → Prop} :
    Triple Blank (do say m; throw e) Q Blank :=
  .bind (Q := fun _ => Blank) (.modify fun _ hs => ⟨hs.channels, hs.priv⟩) fun _ => .throw fun _ => id

theorem parseMatch_spec : Triple Blank (parseMatch env t np) (fun _ s => FromNode env t np s.channels) Blank :=
  .ite (fun _ => iossOfParseV2_spec env t np) fun _ => .throw fun _ => id

/-- Whichever allocations fail, an interface without channels ends with one
channel an entry or with the built-in pair, or fails and is as it was. -/
theorem parse_all_or_nothing (env : Env) (t : Tree) (idev : Idev) :
    Triple Blank (iossOfParse env t idev) (fun _ s => Parsed env t idev s.channels) Blank := by
  unfold iossOfParse
  cases hnp : idev.np with
  | none => exact orBuiltIn_spec env t idev (.throw fun _ => id)
  | some np =>
    dsimp only
    cases ofParsePhandle env t np "qcom,ioss" 0 with
    | none => exact orBuiltIn_spec env t idev (say_throw_blank _ _)
    | some ofRoot =>
      dsimp only
      cases env.pdevOf ofRoot with
      | none => exact say_throw_blank _ _
      | some pdev =>
        refine .ite (fun _ => say_throw_blank _ _) fun _ => ?_
        have hmatch : Triple Blank (parseMatch env t np) (fun _ s => Parsed env t idev s.channels) Blank :=
          (parseMatch_spec env t np).post fun _ _ hs => .inl ⟨np, hnp, hs⟩
        exact hmatch.tryCatch fun rc => orBuiltIn_spec env t idev (.throw fun _ => id)

def withAlloc (alloc : Nat → Bool) : Env := { plainEnv with alloc }

/-- Memory runs out at the second channel, when the first one has been added. If
there is memory again the device has the built-in pair, else it has nothing. -/
theorem parse_all_or_nothing_second_channel :
    let idev := deviceOf (deviceDraft.node 4)
    let short := exec (iossOfParse (withAlloc fun i => i ≠ 4) channelTree idev) {}
    let out := exec (iossOfParse (withAlloc fun i => i < 4) channelTree idev) {}
    short.1 = .ok () ∧ short.2.channels = [fallbackChannel .rx, fallbackChannel .tx] ∧
      Parsed (withAlloc fun i => i ≠ 4) channelTree idev short.2.channels ∧
      out.1 = .error .noMem ∧ Blank out.2 := by
  intro idev short out
  have hok : short.1 = .ok () := by decide +kernel
  have herror : out.1 = .error .noMem := by decide +kernel
  have h (env : Env) := parse_all_or_nothing env channelTree idev
  exact ⟨hok, by decide +kernel, (h _).ok ⟨rfl, rfl⟩ (Prod.ext hok rfl), herror,
    (h _).error ⟨rfl, rfl⟩ (Prod.ext herror rfl)⟩

end IpaOffload.Ioss
