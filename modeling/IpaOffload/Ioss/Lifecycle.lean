import IpaOffload.Lib.Runs
import IpaOffload.Ioss.Online
import IpaOffload.Ioss.R8125Laws
import IpaOffload.Ioss.Tcm

/-!
# Lifecycles of devices and channels

With the gates off while things are acquired, every release is of something
that is held: each phase of bringing an interface up adds to what its channels
hold, and each label of the error path takes the same away.
-/

namespace IpaOffload.Ioss

open DeviceTree Fallible Runs

variable {w : Nat} {env : R8125Env w} {rs : List Resource}

def On (P : R8125Channel w → Prop) (s : OnChannel (R8125Channel w)) : Prop := P s.ch.driven

-- ---------------------------------------------------------------------------
-- One channel
-- ---------------------------------------------------------------------------

section
variable {P Q E : R8125Channel w → Prop} {F : OnChannel (R8125Channel w) → Prop}

theorem iossDevOp_spec {x : NetChannel (R8125Channel w) → R8125 w Unit} (h : ∀ ch, Triple P (x ch) (fun _ => Q) E) :
    Triple (On P) (iossDevOp fun ch => exec (x ch) ch.driven)
      (fun rc => match rc with | none => On Q | some _ => On E) F := by
  intro s hs
  rw [exec_iossDevOp]
  rcases hexec : exec (x s.ch) s.ch.driven with ⟨e | u, d⟩
  · exact (h s.ch).error hs hexec
  · exact (h s.ch).ok hs hexec

theorem iossDevOp_either {x : NetChannel (R8125Channel w) → R8125 w Unit}
    (h : ∀ ch, Triple P (x ch) (fun _ => Q) Q) :
    Triple (On P) (iossDevOp fun ch => exec (x ch) ch.driven) (fun _ => On Q) F :=
  (iossDevOp_spec h).post fun rc _ hs => by cases rc <;> exact hs

theorem setCh_spec {f : NetChannel (R8125Channel w) → NetChannel (R8125Channel w)}
    (hf : ∀ ch, (f ch).driven = ch.driven) : Triple (On P) (setCh f) (fun _ => On P) F := by
  refine .modify fun s hs => ?_
  unfold On
  rw [hf]
  exact hs

theorem selectChannelConfig_spec (cfg : ConfigEnv) :
    Triple (On P) (iossNetSelectChannelConfig cfg) (fun _ => On P) F := by
  refine .of_exec (fun s _ => exec_selectChannelConfig cfg s) fun s hs => ?_
  unfold On
  rw [selected_driven]
  exact hs

theorem deselectChannelConfig_spec : Triple (On P) iossNetDeselectChannelConfig (fun _ => On P) F :=
  .of_exec (fun s _ => exec_deselectChannelConfig s) fun _ hs => hs

end

theorem allocChannel_spec (h : env.Acquires) (cfg : ConfigEnv) (debugfs : Option Errno) :
    Triple (On Quiet) (iossNetAllocChannel (r8125IossOps env) cfg debugfs) (fun _ => On (Holds [.ring])) (On Quiet) := by
  unfold iossNetAllocChannel
  refine .bind (selectChannelConfig_spec cfg) fun _ => ?_
  refine .bind (iossDevOp_spec (x := r8125IossRequestChannel env) (requestChannel_spec h)) fun rc => ?_
  cases rc with
  | some e => exact .bind deselectChannelConfig_spec fun _ => .throw fun _ => id
  | none =>
    refine .bind (setCh_spec fun _ => rfl) fun _ => ?_
    cases debugfs with
    | none => exact .pure fun _ => id
    | some e =>
      refine .bind (iossDevOp_either (x := fun _ => r8125IossReleaseChannel) fun _ => releaseChannel_spec) fun _ => ?_
      exact .bind (setCh_spec fun _ => rfl) fun _ => .bind deselectChannelConfig_spec fun _ => .throw fun _ => id

theorem freeChannel_spec :
    Triple (On (Holds (.ring :: rs))) (iossNetFreeChannel (r8125IossOps env)) (fun _ => On Quiet) (On Quiet) := by
  unfold iossNetFreeChannel
  refine .bind (iossDevOp_either (x := fun _ => r8125IossReleaseChannel) fun _ => releaseChannel_spec) fun rc => ?_
  cases rc with
  | some e => exact .throw fun _ => id
  | none => exact .bind (setCh_spec fun _ => rfl) fun _ => deselectChannelConfig_spec

theorem netEnableChannel_spec (h : env.Acquires) {F : OnChannel (R8125Channel w) → Prop} :
    Triple (On (Holds rs)) (iossNetEnableChannel (r8125IossOps env)) (fun _ => On (Holds (.channel :: rs))) F := by
  unfold iossNetEnableChannel
  refine .bind (iossDevOp_spec (E := fun _ => False) (x := fun _ => r8125IossEnableChannel env) fun _ =>
    enableChannel_spec h) fun rc => ?_
  cases rc with
  | some e => exact fun _ hs => hs.elim
  | none => exact setCh_spec fun _ => rfl

theorem netDisableChannel_spec (hr : .channel ∉ rs) :
    Triple (On (Holds (.channel :: rs))) (iossNetDisableChannel (r8125IossOps env)) (fun _ => On (Holds rs))
      (On (Holds rs)) := by
  unfold iossNetDisableChannel
  refine .bind (iossDevOp_either (x := fun _ => r8125IossDisableChannel) fun _ => disableChannel_spec hr) fun rc => ?_
  cases rc with
  | some e => exact .throw fun _ => id
  | none => exact setCh_spec fun _ => rfl

theorem setupEvent_spec (h : env.Acquires) (hev : .event ∉ rs) (hen : .eventEnable ∉ rs) :
    Triple (On (Holds rs)) (iossNetSetupEvent (r8125IossOps env)) (fun _ => On (Holds (.eventEnable :: .event :: rs)))
      (On (Holds rs)) := by
  unfold iossNetSetupEvent
  refine .bind (iossDevOp_spec (x := fun _ => r8125IossRequestEvent env) fun _ => requestEvent_spec h) fun rc => ?_
  cases rc with
  | some e => exact .throw fun _ => id
  | none =>
    refine .bind (setCh_spec fun _ => rfl) fun _ => ?_
    refine .bind (iossDevOp_spec (x := r8125IossEnableEvent env) (enableEvent_spec h (by simp [hen]))) fun rc => ?_
    cases rc with
    | none => exact setCh_spec fun _ => rfl
    | some e =>
      exact .bind (iossDevOp_either (x := fun _ => r8125IossReleaseEvent) fun _ => releaseEvent_spec hev) fun _ =>
        .throw fun _ => id

theorem teardownEvent_spec (hev : .event ∉ rs) (hen : .eventEnable ∉ rs) :
    Triple (On (Holds (.eventEnable :: .event :: rs))) (iossNetTeardownEvent (r8125IossOps env))
      (fun _ => On (Holds rs)) (On (Holds rs)) := by
  unfold iossNetTeardownEvent
  refine .bind (iossDevOp_either (x := r8125IossDisableEvent) (disableEvent_spec (by simp [hen]))) fun rc1 => ?_
  refine .when_bind (setCh_spec fun _ => rfl) ?_
  refine .bind (iossDevOp_either (x := fun _ => r8125IossReleaseEvent) fun _ => releaseEvent_spec hev) fun rc2 => ?_
  exact .when_bind (setCh_spec fun _ => rfl) (.ite (fun _ => .throw fun _ => id) fun _ => .pure fun _ => id)

-- ---------------------------------------------------------------------------
-- All channels
-- ---------------------------------------------------------------------------

section
variable {D : Type} {action revert : Nat → Net D Unit} {P Q R : NetChannel D → Prop}

/-- Where every action makes `Q` of `P` or fails with `R`, and every reversion
makes `R` of `Q`, a failure leaves `R` everywhere. -/
theorem iossListIterAction_spec
    (haction : ∀ i, Triple (fun s => P s.ch) (action i) (fun _ s => Q s.ch) fun s => R s.ch)
    (hrevert : ∀ i, Triple (fun s => Q s.ch) (revert i) (fun _ s => R s.ch) fun s => R s.ch)
    (hPR : ∀ ch, P ch → R ch) (i : Nat) {chs : List (NetChannel D)} (tcm : Option TcmData) (hchs : ∀ ch ∈ chs, P ch) :
    match iossListIterAction action revert i chs tcm with
    | (none, chs', _) => ∀ ch ∈ chs', Q ch
    | (some _, chs', _) => ∀ ch ∈ chs', R ch := by
  induction chs generalizing i tcm with
  | nil => exact fun ch hch => absurd hch List.not_mem_nil
  | cons ch chs ih =>
    obtain ⟨hch, hchs⟩ := List.forall_mem_cons.mp hchs
    unfold iossListIterAction
    rcases hexec : exec (action i) { ch, tcm } with ⟨e | u, s⟩
    · have hs : R s.ch := (haction i).error hch hexec
      exact List.forall_mem_cons.mpr ⟨hs, fun ch hch => hPR ch (hchs ch hch)⟩
    · have hs : Q s.ch := (haction i).ok hch hexec
      have hrest := ih (i + 1) s.tcm hchs
      dsimp only
      rcases hiter : iossListIterAction action revert (i + 1) chs s.tcm with ⟨_ | e, chs', tcm'⟩
      · rw [hiter] at hrest
        exact List.forall_mem_cons.mpr ⟨hs, hrest⟩
      · rw [hiter] at hrest
        have hrev : R (exec (revert i) { ch := s.ch, tcm := tcm' }).2.ch := (hrevert i).always hs
        exact List.forall_mem_cons.mpr ⟨hrev, hrest⟩

theorem iossForEachChannel_spec
    (haction : ∀ i, Triple (fun s => P s.ch) (action i) (fun _ s => Q s.ch) fun s => Q s.ch)
    (i : Nat) {chs : List (NetChannel D)} (tcm : Option TcmData) (hchs : ∀ ch ∈ chs, P ch) :
    ∀ ch ∈ (iossForEachChannel action i chs tcm).2.1, Q ch := by
  induction chs generalizing i tcm with
  | nil => exact fun ch hch => absurd hch List.not_mem_nil
  | cons ch chs ih =>
    obtain ⟨hch, hchs⟩ := List.forall_mem_cons.mp hchs
    unfold iossForEachChannel
    dsimp only
    have hhead : Q (exec (action i) { ch, tcm }).2.ch := (haction i).always hch
    generalize exec (action i) { ch, tcm } = r at hhead
    exact List.forall_mem_cons.mpr ⟨hhead, ih (i + 1) r.2.tcm hchs⟩

end

-- ---------------------------------------------------------------------------
-- Phases
-- ---------------------------------------------------------------------------

/-- Bringing the interface of `d` up or down has got to `s`: all is well, `P` holds
of every channel, and where `reg` does, IPA has the interface. -/
structure Phase (d : Device w) (reg : Prop) (P : R8125Channel w → Prop) (s : Device w) : Prop where
  clean : s.faults = []
  chans : ∀ ch ∈ s.channels, P ch.driven
  registered : reg → s.held .pipes = true ∧ s.held .intf = true
  watched : s.watched = d.watched
  privateSet : s.privateSet = d.privateSet
  device : s.held .device = d.held .device

section
variable {d s : Device w} {reg : Prop} {P Q R : R8125Channel w → Prop} {env : LinkEnv w}

theorem Phase.unregistered (h : Phase d reg P s) : Phase d False P s := { h with registered := nofun }

theorem Phase.state (h : Phase d reg P s) (state : IfState) : Phase d reg P { s with state } := { h with }

theorem Phase.failIf (h : Phase d reg P s) (failed : Bool) : Phase d reg P (s.failIf failed) := by
  unfold Device.failIf
  split
  · exact h.state _
  · exact h

theorem Phase.iter {action revert : Nat → Net (R8125Channel w) Unit} (h : Phase d reg P s)
    (haction : ∀ i, Triple (On P) (action i) (fun _ => On Q) (On R))
    (hrevert : ∀ i, Triple (On Q) (revert i) (fun _ => On R) (On R)) (hPR : ∀ c, P c → R c) :
    match iterChannels action revert s with
    | (none, s') => Phase d reg Q s'
    | (some _, s') => Phase d reg R s' := by
  have hiter := iossListIterAction_spec (P := fun ch => P ch.driven) (Q := fun ch => Q ch.driven)
    (R := fun ch => R ch.driven) haction hrevert (fun ch => hPR ch.driven) 0 s.tcm h.chans
  unfold iterChannels
  rcases hr : iossListIterAction action revert 0 s.channels s.tcm with ⟨_ | e, chs, tcm⟩
  · rw [hr] at hiter
    exact { h with chans := hiter }
  · rw [hr] at hiter
    exact { h with chans := hiter }

theorem Phase.forEach {action : Nat → Net (R8125Channel w) Unit} (h : Phase d reg P s)
    (haction : ∀ i, Triple (On P) (action i) (fun _ => On Q) (On Q)) : Phase d reg Q (forEachChannel action s).2 :=
  { h with
    chans := iossForEachChannel_spec (P := fun ch => P ch.driven) (Q := fun ch => Q ch.driven) haction 0 s.tcm h.chans }

theorem Device.need_of_held {r : Resource} (h : s.held r = true) : s.need r = s := if_pos h

theorem Phase.acquire (h : Phase d reg P s) {r : Resource} (hr : r ≠ .device) : Phase d False P (s.acquire r) :=
  { h with registered := nofun, device := (Function.update_of_ne hr.symm ..).trans h.device }

theorem Phase.drop (h : Phase d reg P s) {r : Resource} (hr : r ≠ .device) : Phase d False P (s.drop r) :=
  { h with registered := nofun, device := (Function.update_of_ne hr.symm ..).trans h.device }

theorem Phase.register (env : LinkEnv w) (h : Phase d reg P s) :
    match iossIpaRegisterIface env s with
    | (none, s') => Phase d (env.params.skipIpaRegister = false) P s' ∧
        s'.skippedRegister = env.params.skipIpaRegister
    | (some _, s') => Phase d False P s' := by
  unfold iossIpaRegisterIface
  dsimp only
  generalize exec (iossIpaRegister env.params env.platform
    (s.channels.map fun ch => ({ ch, tcm := s.tcm } : OnChannel _).toIpa env.addresses))
    { s.ipa with connected := none } = r
  obtain ⟨e | u, ipa⟩ := r
  · have h' : Phase d False P { s with ipa, skippedRegister := env.params.skipIpaRegister } :=
      { h with registered := nofun }
    dsimp only
    cases ipa.connected with
    | none => exact h'
    | some pipes =>
      dsimp only
      by_cases hconn : env.platform.connPipes pipes = true
      · rw [if_pos hconn]
        cases env.reconnDisconn with
        | none => exact h'.drop (r := .pipes) (by decide)
        | some e => exact h'.acquire (r := .pipes) (by decide)
      · rw [if_neg hconn]
        exact h'
  · cases hskip : env.params.skipIpaRegister with
    | true => exact ⟨{ h with registered := nofun }, rfl⟩
    | false =>
      have h' : Phase d False P { s with ipa, skippedRegister := false } := { h with registered := nofun }
      refine ⟨{ (h'.acquire (r := .pipes) (by decide)).acquire (r := .intf) (by decide) with
        registered := fun _ => ?_ }, rfl⟩
      exact ⟨rfl, rfl⟩

theorem Phase.unregister (h : Phase d reg P s) (hreg : env.skipUnregister = false → reg) :
    Phase d False P (iossIpaUnregister env s).2 := by
  unfold iossIpaUnregister
  cases hskip : env.skipUnregister with
  | true => exact h.unregistered
  | false =>
    obtain ⟨hpipes, hintf⟩ := h.registered (hreg hskip)
    rw [if_neg (by simp)]
    dsimp only
    rw [Device.need_of_held hpipes]
    cases env.disconnPipes with
    | some e => exact h.unregistered
    | none =>
      have hdrop : Phase d False P (s.drop .pipes) := h.drop (by decide)
      have hheld : (s.drop .pipes).held .intf = true := hintf
      dsimp only
      rw [Device.need_of_held hheld]
      cases env.unregIntf with
      | some e => exact hdrop
      | none => exact { hdrop.drop (r := .intf) (by decide) with }

-- ---------------------------------------------------------------------------
-- Up and down
-- ---------------------------------------------------------------------------

structure LinkEnv.Acquires (env : LinkEnv w) : Prop where
  chan : ∀ i, (env.chan i).Acquires
  /-- What was not registered is not unregistered. -/
  ipa : env.params.skipIpaRegister = true → env.skipUnregister = true

def onlineResources : List Resource := [.channel, .eventEnable, .event, .ring]

structure Falling (d : Device w) (reg : Prop) (P : R8125Channel w → Prop) (s : Device w) : Prop
    extends Phase d reg P s where
  notOnline : s.state ≠ .online

abbrev Down (d s : Device w) : Prop := Falling d False Quiet s

theorem errAllocChannels_down (h : Phase d reg Quiet s) : Down d (errAllocChannels s) :=
  { (h.state .error).unregistered with notOnline := by simp [errAllocChannels] }

theorem errIpaRegister_down (h : Phase d reg (Holds [.ring]) s) : Down d (errIpaRegister env s) :=
  errAllocChannels_down (h.forEach fun _ => freeChannel_spec)

theorem errSetupEvents_down (h : Phase d reg (Holds [.ring]) s) (hreg : env.skipUnregister = false → reg) :
    Down d (errSetupEvents env s) :=
  errIpaRegister_down (h.unregister hreg)

theorem errEnableChannels_down (h : Phase d reg (Holds [.eventEnable, .event, .ring]) s)
    (hreg : env.skipUnregister = false → reg) : Down d (errEnableChannels env s) :=
  errSetupEvents_down (h.forEach fun _ => teardownEvent_spec (by decide) (by decide)) hreg

theorem errDisablePc_down (h : Phase d reg (Holds onlineResources) s) (hreg : env.skipUnregister = false → reg) :
    Down d (errDisablePc env s) :=
  errEnableChannels_down (h.forEach fun _ => netDisableChannel_spec (by decide)) hreg

def Settled (d : Device w) (env : LinkEnv w) (s : Device w) : Prop :=
  Down d s ∨
    Phase d (env.params.skipIpaRegister = false) (Holds onlineResources) s ∧
      s.skippedRegister = env.params.skipIpaRegister

theorem setOnline_settled (h : Phase d False Quiet s) (henv : env.Acquires) (hstate : s.state = .offline) :
    Settled d env (iossIfaceSetOnline env s) := by
  have hreg : env.skipUnregister = false → env.params.skipIpaRegister = false := by
    intro hunreg
    by_contra hskip
    simp [henv.ipa (by simpa using hskip)] at hunreg
  unfold iossIfaceSetOnline
  rw [if_neg (by simp [hstate])]
  -- the channels
  have h₁ : match iossNetAllocChannels env s with
      | (none, s') => Phase d False (Holds [.ring]) s'
      | (some _, s') => Phase d False Quiet s' :=
    h.iter (fun i => allocChannel_spec (henv.chan i) (env.config i) (env.debugfs i)) (fun i => freeChannel_spec) fun _ => id
  rcases hr₁ : iossNetAllocChannels env s with ⟨_ | e, s₁⟩ <;> rw [hr₁] at h₁
  swap
  · exact .inl (errAllocChannels_down h₁)
  -- IPA
  have h₂ := h₁.register env
  dsimp only
  rcases hr₂ : iossIpaRegisterIface env s₁ with ⟨_ | e, s₂⟩ <;> rw [hr₂] at h₂
  swap
  · exact .inl (errIpaRegister_down h₂)
  obtain ⟨h₂, hskip⟩ := h₂
  -- the events
  have h₃ : match iossNetSetupEvents env s₂ with
      | (none, s') => Phase d _ (Holds [.eventEnable, .event, .ring]) s'
      | (some _, s') => Phase d _ (Holds [.ring]) s' :=
    h₂.iter (fun i => setupEvent_spec (henv.chan i) (by decide) (by decide))
      (fun i => teardownEvent_spec (by decide) (by decide)) fun _ => id
  have hskip₃ : (iossNetSetupEvents env s₂).2.skippedRegister = env.params.skipIpaRegister := hskip
  dsimp only
  rcases hr₃ : iossNetSetupEvents env s₂ with ⟨_ | e, s₃⟩ <;> rw [hr₃] at h₃ hskip₃
  swap
  · exact .inl (errSetupEvents_down h₃ hreg)
  -- the channels again
  have h₄ : match iossNetEnableChannels env s₃ with
      | (none, s') => Phase d _ (Holds onlineResources) s'
      | (some _, s') => Phase d _ (Holds [.eventEnable, .event, .ring]) s' :=
    h₃.iter (fun i => netEnableChannel_spec (henv.chan i)) (fun i => netDisableChannel_spec (by decide)) fun _ => id
  have hskip₄ : (iossNetEnableChannels env s₃).2.skippedRegister = env.params.skipIpaRegister := hskip₃
  dsimp only
  rcases hr₄ : iossNetEnableChannels env s₃ with ⟨_ | e, s₄⟩ <;> rw [hr₄] at h₄ hskip₄
  swap
  · exact .inl (errEnableChannels_down h₄ hreg)
  dsimp only
  split
  · exact .inl (errDisablePc_down h₄ hreg)
  · exact .inr ⟨h₄.state .online, hskip₄⟩

theorem Device.failIf_state {s : Device w} (h : s.state ≠ .online) (failed : Bool) :
    (s.failIf failed).state ≠ .online := by
  unfold failIf
  split
  · simp
  · exact h

theorem Device.need_state (s : Device w) (r : Resource) : (s.need r).state = s.state := by
  unfold need
  split <;> rfl

theorem iossIpaUnregister_state (env : LinkEnv w) (s : Device w) : (iossIpaUnregister env s).2.state = s.state := by
  unfold iossIpaUnregister
  split
  · rfl
  dsimp only
  cases env.disconnPipes with
  | some e => exact s.need_state _
  | none =>
    have hdrop : ((s.need .pipes).drop .pipes).state = s.state := s.need_state _
    cases env.unregIntf with
    | some e => exact (Device.need_state _ _).trans hdrop
    | none => exact (Device.need_state _ _).trans hdrop

theorem Falling.forEach {action : Nat → Net (R8125Channel w) Unit} (h : Falling d reg P s)
    (haction : ∀ i, Triple (On P) (action i) (fun _ => On Q) (On Q)) :
    Falling d reg Q ((forEachChannel action s).2.failIf (forEachChannel action s).1) :=
  { (h.toPhase.forEach haction).failIf _ with
    notOnline := Device.failIf_state (s := (forEachChannel action s).2) h.notOnline _ }

theorem Falling.unregister (h : Falling d reg P s) (hreg : env.skipUnregister = false → reg) :
    Falling d False P ((iossIpaUnregister env s).2.failIf (iossIpaUnregister env s).1.isSome) :=
  { (h.toPhase.unregister hreg).failIf _ with
    notOnline := Device.failIf_state ((iossIpaUnregister_state env s).trans_ne h.notOnline) _ }

theorem setOffline_down (h : Phase d reg (Holds onlineResources) s) (hreg : env.skipUnregister = false → reg)
    (hstate : s.state = .online) : Down d (iossIfaceSetOffline env s) := by
  unfold iossIfaceSetOffline
  rw [if_neg (by simp [hstate])]
  dsimp only
  have h₀ : Falling d reg (Holds onlineResources) (Device.failIf env.pc.isSome { s with state := .offline }) :=
    { (h.state .offline).failIf _ with notOnline := Device.failIf_state (by simp) _ }
  generalize Device.failIf env.pc.isSome { s with state := .offline } = s₀ at h₀
  have h₁ : Falling d reg (Holds [.eventEnable, .event, .ring])
      ((iossNetDisableChannels env s₀).2.failIf (iossNetDisableChannels env s₀).1) :=
    h₀.forEach fun _ => netDisableChannel_spec (by decide)
  generalize (iossNetDisableChannels env s₀).2.failIf (iossNetDisableChannels env s₀).1 = s₁ at h₁
  have h₂ : Falling d reg (Holds [.ring])
      ((iossNetTeardownEvents env s₁).2.failIf (iossNetTeardownEvents env s₁).1) :=
    h₁.forEach fun _ => teardownEvent_spec (by decide) (by decide)
  generalize (iossNetTeardownEvents env s₁).2.failIf (iossNetTeardownEvents env s₁).1 = s₂ at h₂
  have h₃ := h₂.unregister hreg
  generalize (iossIpaUnregister env s₂).2.failIf (iossIpaUnregister env s₂).1.isSome = s₃ at h₃
  exact h₃.forEach fun _ => freeChannel_spec

end

-- ---------------------------------------------------------------------------
-- Runs
-- ---------------------------------------------------------------------------

/-- No release of what is not held, and no NULL pointer followed, so far. -/
def FaultFree (s : Device w) : Prop := s.faults = [] ∧ ∀ ch ∈ s.channels, ch.driven.faults = []

/-- The gates are off where something is acquired, and a registration that was
skipped is not undone. -/
def DeviceAction.Undiagnosed (s : Device w) : DeviceAction w → Prop
  | .probe env => s.watched = false → env.skipOpenDevice = false
  | .refresh env _ up =>
    if up then s.state = .offline → env.Acquires
    else s.state = .online → s.skippedRegister = true → env.skipUnregister = true
  | .remove env _ _ _ => s.state = .online → s.skippedRegister = true → env.skipUnregister = true

def Device.init (chs : List Channel) : Device w where
  channels := chs.map fun ch => ch.toNet {}
  ipa := { pipes := chs.map fun _ => {} }

structure Healthy (s : Device w) : Prop where
  clean : s.faults = []
  quiet : ∀ ch ∈ s.channels, Quiet ch.driven
  online : s.state = .online →
    Phase s (s.skippedRegister = false) (Holds onlineResources) s
  opened : s.watched = true → s.held .device = true ∧ s.privateSet = true

section
variable {s s' : Device w} {env : LinkEnv w}

theorem Healthy.faultFree (h : Healthy s) : FaultFree s := ⟨h.clean, h.quiet⟩

theorem Healthy.phase (h : Healthy s) : Phase s False Quiet s := ⟨h.clean, h.quiet, nofun, rfl, rfl, rfl⟩

theorem Phase.opened {reg : Prop} {P : R8125Channel w → Prop} (hp : Phase s reg P s') (h : Healthy s) :
    s'.watched = true → s'.held .device = true ∧ s'.privateSet = true := by
  rw [hp.watched, hp.privateSet, hp.device]
  exact h.opened

theorem Healthy.of_down (h : Healthy s) (hdown : Down s s') : Healthy s' :=
  ⟨hdown.clean, hdown.chans, fun honline => absurd honline hdown.notOnline, hdown.toPhase.opened h⟩

theorem Healthy.of_settled (h : Healthy s) (hs : Settled s env s') : Healthy s' := by
  rcases hs with hdown | ⟨hup, hskip⟩
  · exact h.of_down hdown
  · refine ⟨hup.clean, fun ch hch => (hup.chans ch hch).quiet, fun _ => ?_, hup.opened h⟩
    exact { hup with
      registered := fun hnot => hup.registered (hskip ▸ hnot), watched := rfl, privateSet := rfl, device := rfl }

theorem Healthy.setOnline (h : Healthy s) (henv : s.state = .offline → env.Acquires) :
    Healthy (iossIfaceSetOnline env s) := by
  by_cases hstate : s.state = .offline
  · exact h.of_settled (setOnline_settled h.phase (henv hstate) hstate)
  · rw [iossIfaceSetOnline, if_pos hstate]
    exact h

theorem Healthy.setOffline (h : Healthy s)
    (henv : s.state = .online → s.skippedRegister = true → env.skipUnregister = true) :
    Healthy (iossIfaceSetOffline env s) ∧ (iossIfaceSetOffline env s).watched = s.watched := by
  by_cases hstate : s.state = .online
  · have hreg : env.skipUnregister = false → s.skippedRegister = false := by
      intro hunreg
      by_contra hskip
      simp [henv hstate (by simpa using hskip)] at hunreg
    have hdown := setOffline_down (h.online hstate) hreg hstate
    exact ⟨h.of_down hdown, hdown.watched⟩
  · rw [iossIfaceSetOffline, if_pos hstate]
    exact ⟨h, rfl⟩

theorem Healthy.refresh (h : Healthy s) (netDev : Bool) {up : Bool}
    (henv : (DeviceAction.refresh env netDev up).Undiagnosed s) : Healthy (iossRefreshWork env netDev up s) := by
  unfold iossRefreshWork
  split
  · exact h
  · cases up with
    | true => exact h.setOnline henv
    | false => exact (h.setOffline henv).1

theorem closeDevice_eq (hdev : s.held .device = true) (hpriv : s.privateSet = true) :
    r8125IossCloseDevice s = s.drop .device := by
  unfold r8125IossCloseDevice
  rw [Device.need_of_held hdev, if_pos hpriv]

theorem Healthy.of_interface (h : Healthy s) (hfaults : s'.faults = s.faults) (hchs : s'.channels = s.channels)
    (hstate : s'.state = s.state) (hskip : s'.skippedRegister = s.skippedRegister)
    (hheld : ∀ r, r ≠ .device → s'.held r = s.held r)
    (hopened : s'.watched = true → s'.held .device = true ∧ s'.privateSet = true) : Healthy s' := by
  refine ⟨hfaults.trans h.clean, hchs ▸ h.quiet, fun honline => ?_, hopened⟩
  have hphase := h.online (hstate ▸ honline)
  refine ⟨hfaults.trans h.clean, hchs ▸ hphase.chans, fun hnot => ?_, rfl, rfl, rfl⟩
  rw [hheld .pipes (by decide), hheld .intf (by decide)]
  exact hphase.registered (hskip ▸ hnot)

theorem Healthy.close (h : Healthy s) (hdev : s.held .device = true) (hpriv : s.privateSet = true)
    (hwatch : s.watched = false) : Healthy (r8125IossCloseDevice s) := by
  rw [closeDevice_eq hdev hpriv]
  refine h.of_interface rfl rfl rfl rfl (fun r hr => Function.update_of_ne hr ..) fun hw => ?_
  rw [show (s.drop .device).watched = s.watched from rfl, hwatch] at hw
  cases hw

theorem Healthy.probe (h : Healthy s) {env : ProbeEnv} (hwatch : s.watched = false)
    (hgate : env.skipOpenDevice = false) :
    Healthy (iossBusProbe env s) := by
  -- the device is open from here on
  have hheld : (s.acquire .device).held .device = true := rfl
  have hopen : Healthy { s.acquire .device with privateSet := true } :=
    h.of_interface rfl rfl rfl rfl (fun r hr => Function.update_of_ne hr ..) fun _ => ⟨hheld, rfl⟩
  unfold iossBusProbe r8125IossOpenDevice
  rw [hgate]
  cases env.prepared with
  | false => exact h
  | true =>
    cases env.alloc with
    | false => exact h
    | true =>
      cases env.registerNotifier with
      | false => exact h
      | true =>
        cases env.watch with
        | true => exact hopen.of_interface rfl rfl rfl rfl (fun _ _ => rfl) fun _ => ⟨hheld, rfl⟩
        | false => exact hopen.close hheld rfl hwatch

theorem Healthy.remove (h : Healthy s) (netDev probing unwatch : Bool) (hwatch : s.watched = true)
    (henv : s.state = .online → s.skippedRegister = true → env.skipUnregister = true) :
    Healthy (iossBusRemove env netDev probing unwatch s) := by
  have hrefresh : Healthy (iossRefreshWork env netDev false s) ∧
      (iossRefreshWork env netDev false s).watched = s.watched := by
    unfold iossRefreshWork
    split
    · exact ⟨h, rfl⟩
    · exact h.setOffline henv
  unfold iossBusRemove
  generalize iossRefreshWork env netDev false s = s₁ at hrefresh
  obtain ⟨h₁, hwatch₁⟩ := hrefresh
  obtain ⟨hdev, hpriv⟩ := h₁.opened (hwatch₁.trans hwatch)
  have hunwatched : Healthy { s₁ with watched := false } := h₁.of_interface rfl rfl rfl rfl (fun _ _ => rfl) nofun
  dsimp only
  split
  · exact hunwatched.close hdev hpriv rfl
  · exact hunwatched

theorem Healthy.step (s : Device w) (a : DeviceAction w) (h : Healthy s) (ha : a.Undiagnosed s) :
    Healthy (s.step a) := by
  cases a with
  | probe env =>
    change Healthy (if s.watched = true then s else iossBusProbe env s)
    split
    · exact h
    · rename_i hwatch
      have hwatch : s.watched = false := by simpa using hwatch
      exact h.probe hwatch (ha hwatch)
  | refresh env netDev up =>
    change Healthy (if s.watched = true then iossRefreshWork env netDev up s else s)
    split
    · exact h.refresh netDev ha
    · exact h
  | remove env netDev probing unwatch =>
    change Healthy (if s.watched = true then iossBusRemove env netDev probing unwatch s else s)
    split
    · rename_i hwatch
      exact h.remove netDev probing unwatch hwatch ha
    · exact h

theorem Healthy.init (chs : List Channel) : Healthy (Device.init chs : Device w) := by
  refine ⟨rfl, fun ch hch => ?_, nofun, nofun⟩
  obtain ⟨ch', -, rfl⟩ := List.mem_map.mp hch
  rfl

end

/-- While things are acquired with the gates off, and a registration that was
skipped is not undone, nothing is released that is not held and no NULL
pointer is followed. -/
theorem lifecycle_fault_free (chs : List Channel) (as : List (DeviceAction w))
    (h : Meets Device.step (fun s a => a.Undiagnosed s) (Device.init chs) as) :
    ∀ pre, pre <+: as → FaultFree (run Device.step (Device.init chs) pre) := by
  rintro pre ⟨post, rfl⟩
  exact (run_inv Healthy.step (Healthy.init chs) h.append.1).faultFree

-- An RTL8125 with its two channels, on a kernel where everything succeeds.

def sampleProbe : ProbeEnv :=
  { skipOpenDevice := false, prepared := true, alloc := true, registerNotifier := true, watch := true }

def sampleLink : LinkEnv 32 where
  chan i :=
    { descAlloc := some (0xe8000000 + i * 0x10000, 0x80000000 + BitVec.ofNat 32 (i * 0x10000))
      buffAlloc := some (0xe0000000 + i * 0x10000, 0x90000000 + BitVec.ofNat 32 (i * 0x10000))
      mapEvent := some 0x1000 }
  config _ := { linkSpeed := 2500, maxDdrBandwidth := 2500, disableTcm := false, tcmActivate := none }
  debugfs _ := none
  addresses := { pagePhys := fun addr => addr / 4096 * 4096 - 0x40000000, pageSize := 4096, physBits := 32, longBits := 32 }
  params := {}
  platform :=
    { longBits := 32, pageOffset := 0xc0000000, virtToPhys := fun addr => addr - 0x40000000, kcalloc := fun _ => true
      ctype := true, halFillSi := fun _ => true, connPipes := fun _ => true, voteBw := true, regIntf := true }
  reconnDisconn := none
  skipUnregister := false
  disconnPipes := none
  unregIntf := none
  pc := none

def sampleChannels : List Channel :=
  [{ direction := .rx, ringSize := 2, buffSize := 2048, modCountMin := 0, modCountMax := 0, modUsecsMin := 0
     modUsecsMax := 0, filterTypes := rxfIp },
   { direction := .tx, ringSize := 2, buffSize := 2048, modCountMin := 0, modCountMax := 0, modUsecsMin := 0
     modUsecsMax := 0, filterTypes := 0 }]

theorem lifecycle_fault_free_up_and_down :
    (run Device.step (Device.init sampleChannels) [.probe sampleProbe, .refresh sampleLink true true]).state = .online ∧
      ∀ pre, pre <+: [.probe sampleProbe, .refresh sampleLink true true, .remove sampleLink true false true] →
        FaultFree (run Device.step (Device.init sampleChannels) pre) := by
  refine ⟨by decide +kernel,
    lifecycle_fault_free sampleChannels _ ⟨fun _ => rfl, fun _ => ⟨fun i => ?_, nofun⟩, ?_, trivial⟩⟩
  · exact ⟨rfl, rfl, rfl, rfl, rfl, rfl, rfl, rfl⟩
  · intro _ hskip
    exact absurd hskip (by decide +kernel)

/-- Two of the gates, each on when its operation runs and off afterwards. A device
that was not opened is closed through a NULL pointer. Channels without a ring
cannot be described to IPA, and are then released through one. -/
theorem skipped_acquires_released :
    (run Device.step (Device.init sampleChannels : Device 32)
        [.probe { sampleProbe with skipOpenDevice := true }, .remove sampleLink true false true]).faults =
      [.notHeld .device, .nullPrivate] ∧
    (run Device.step (Device.init sampleChannels : Device 32)
        [.probe sampleProbe,
          .refresh { sampleLink with chan := fun i => { sampleLink.chan i with skipRequestChannel := true } } true true]).channels.map
        (fun ch => ch.driven.faults) = [[.notHeld .ring, .nullRing], [.notHeld .ring, .nullRing]] := by
  constructor <;> decide +kernel

end IpaOffload.Ioss
