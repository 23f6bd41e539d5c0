import IpaOffload.Lib.Runs
import IpaOffload.Ioss.Lifecycle

/-!
# When an interface is refreshed

The netdevice notifier and the switches of the device only queue a refresh; the
work reads the link later, while the link goes on changing. The network stack
holds the rtnl lock over each of its own transitions, and the work takes it
once before it looks at the link. One step here is what happens between two
points where another thread may come in.
-/

namespace IpaOffload.Ioss

open Runs

variable {w : Nat}

-- ---------------------------------------------------------------------------
-- States
-- ---------------------------------------------------------------------------

/-- The netdevice events that `ioss_net_event_handlers` has an entry for, and
`NETDEV_DOWN`, for which it has none. -/
inductive NetEvent
  | register
  | unregister
  | up
  | goingDown
  | change
  | down
  deriving DecidableEq, Repr

inductive WorkPhase
  | idle
  /-- It has found the netdevice and waits for the rtnl lock. -/
  | begun
  /-- It has given the lock back. -/
  | fetched
  /-- It has looked at the link. -/
  | decided (up : Bool)
  deriving DecidableEq, Repr

inductive Rtnl
  | free
  /-- Running, and `NETDEV_UP` to come. -/
  | opened
  /-- `NETDEV_GOING_DOWN` is out, and the interface still running. -/
  | goingDown
  | stopped
  deriving DecidableEq, Repr

structure Watched (w : Nat) where
  dev : Device w
  /-- `ioss_iface_to_netdev` is not NULL. -/
  registered : Bool := false
  running : Bool
  carrier : Bool
  offline : Bool
  unbinding : Bool := false
  /-- The refresh is queued. -/
  pending : Bool := false
  phase : WorkPhase := .idle
  rtnl : Rtnl := .free
  /-- The carrier has changed since the stack last looked. -/
  linkwatch : Bool := false
  /-- Threads that have set `offline` or `unbinding` and not queued the refresh. -/
  writers : Nat := 0

-- ---------------------------------------------------------------------------
-- Steps
-- ---------------------------------------------------------------------------

/-- `ioss_iface_queue_refresh`. Queueing a work that is queued does nothing; one
that runs is queued again. -/
def iossIfaceQueueRefresh (s : Watched w) : Watched w := { s with pending := true }

/-- `ioss_net_event_register`. Where the interface cannot be registered its
state is `error`, and nothing is queued. -/
def iossNetEventRegister (registers : Bool) (s : Watched w) : Watched w :=
  let s := { s with registered := true }
  if registers then iossIfaceQueueRefresh s else { s with dev := { s.dev with state := .error } }

def iossNetEventUnregister (s : Watched w) : Watched w := iossIfaceQueueRefresh { s with registered := false }

def iossNetEventGeneric (s : Watched w) : Watched w := iossIfaceQueueRefresh s

def iossNetDeviceEvent (registers : Bool) (e : NetEvent) (s : Watched w) : Watched w :=
  match e with
  | .register => iossNetEventRegister registers s
  | .unregister => iossNetEventUnregister s
  | .up | .goingDown | .change => iossNetEventGeneric s
  | .down => s

def Watched.linkUp (s : Watched w) : Bool := s.running && s.carrier && !s.offline && !s.unbinding

inductive WatchAction (w : Nat)
  /-- The netdevice appears; `registers` is the answer of `device_register`. -/
  | register (registers : Bool)
  | open
  | up
  | close
  | stop
  | closed
  | unregister
  | carrier (on : Bool)
  | linkwatch
  /-- `suspend_ipa_offload`, or the bus's `online`, `offline` and `resume`. -/
  | store (offline : Bool)
  /-- `ioss_net_unwatch_device`. -/
  | unbind
  | queue
  | workBegin
  | workFetch
  | workDecide
  | workAct (env : LinkEnv w)

/-- An action that cannot happen leaves all as it is. -/
def Watched.step (s : Watched w) : WatchAction w → Watched w
  | .register registers =>
    if s.rtnl = .free ∧ s.registered = false then iossNetDeviceEvent registers .register s else s
  | .open => if s.rtnl = .free ∧ s.running = false then { s with running := true, rtnl := .opened } else s
  | .up => if s.rtnl = .opened then iossNetDeviceEvent true .up { s with rtnl := .free } else s
  | .close =>
    if s.rtnl = .free ∧ s.running = true then iossNetDeviceEvent true .goingDown { s with rtnl := .goingDown } else s
  | .stop => if s.rtnl = .goingDown then { s with running := false, rtnl := .stopped } else s
  | .closed => if s.rtnl = .stopped then iossNetDeviceEvent true .down { s with rtnl := .free } else s
  | .unregister =>
    if (s.rtnl = .stopped ∨ s.rtnl = .free ∧ s.running = false) ∧ s.registered = true then
      iossNetDeviceEvent true .unregister { s with rtnl := .free }
    else s
  | .carrier on => { s with carrier := on, linkwatch := true }
  | .linkwatch =>
    -- the stack tells of the carrier only while the interface is up
    if s.rtnl = .free ∧ s.linkwatch = true then
      let s := { s with linkwatch := false }
      if s.running then iossNetDeviceEvent true .change s else s
    else s
  | .store offline => { s with offline, writers := s.writers + 1 }
  | .unbind => { s with unbinding := true, writers := s.writers + 1 }
  | .queue => if 0 < s.writers then iossIfaceQueueRefresh { s with writers := s.writers - 1 } else s
  | .workBegin =>
    if s.pending = true ∧ s.phase = .idle then
      { s with pending := false, phase := if s.registered then .begun else .idle }
    else s
  | .workFetch => if s.phase = .begun ∧ s.rtnl = .free then { s with phase := .fetched } else s
  | .workDecide => if s.phase = .fetched then { s with phase := .decided s.linkUp } else s
  | .workAct env =>
    match s.phase with
    | .decided up => { s with dev := iossRefreshWork env true up s.dev, phase := .idle }
    | _ => s

-- ---------------------------------------------------------------------------
-- The work
-- ---------------------------------------------------------------------------

def Agrees (state : IfState) (up : Bool) : Prop := state = .error ∨ (state = .online ↔ up = true)

theorem setOnline_state (env : LinkEnv w) {d : Device w} (h : d.state = .offline) :
    (iossIfaceSetOnline env d).state = .online ∨ (iossIfaceSetOnline env d).state = .error := by
  unfold iossIfaceSetOnline
  rw [if_neg (by simp [h])]
  rcases iossNetAllocChannels env d with ⟨_ | e, s₁⟩
  swap
  · exact .inr rfl
  dsimp only
  rcases iossIpaRegisterIface env s₁ with ⟨_ | e, s₂⟩
  swap
  · exact .inr rfl
  dsimp only
  rcases iossNetSetupEvents env s₂ with ⟨_ | e, s₃⟩
  swap
  · exact .inr rfl
  dsimp only
  rcases iossNetEnableChannels env s₃ with ⟨_ | e, s₄⟩
  swap
  · exact .inr rfl
  dsimp only
  split
  · exact .inr rfl
  · exact .inl rfl

theorem setOffline_state (env : LinkEnv w) (d : Device w) : (iossIfaceSetOffline env d).state ≠ .online := by
  unfold iossIfaceSetOffline
  split
  · assumption
  dsimp only
  have h₁ : (Device.failIf env.pc.isSome { d with state := .offline }).state ≠ .online :=
    Device.failIf_state (by simp) _
  generalize Device.failIf env.pc.isSome { d with state := .offline } = s₁ at h₁ ⊢
  have h₂ : ((iossNetDisableChannels env s₁).2.failIf (iossNetDisableChannels env s₁).1).state ≠ .online :=
    Device.failIf_state (s := (iossNetDisableChannels env s₁).2) h₁ _
  generalize (iossNetDisableChannels env s₁).2.failIf (iossNetDisableChannels env s₁).1 = s₂ at h₂ ⊢
  have h₃ : ((iossNetTeardownEvents env s₂).2.failIf (iossNetTeardownEvents env s₂).1).state ≠ .online :=
    Device.failIf_state (s := (iossNetTeardownEvents env s₂).2) h₂ _
  generalize (iossNetTeardownEvents env s₂).2.failIf (iossNetTeardownEvents env s₂).1 = s₃ at h₃ ⊢
  have h₄ : ((iossIpaUnregister env s₃).2.failIf (iossIpaUnregister env s₃).1.isSome).state ≠ .online :=
    Device.failIf_state ((iossIpaUnregister_state env s₃).trans_ne h₃) _
  generalize (iossIpaUnregister env s₃).2.failIf (iossIpaUnregister env s₃).1.isSome = s₄ at h₄ ⊢
  exact Device.failIf_state (s := (iossNetFreeChannels env s₄).2) h₄ _

theorem refreshWork_agrees (env : LinkEnv w) (up : Bool) (d : Device w) :
    Agrees (iossRefreshWork env true up d).state up := by
  cases up with
  | false => exact .inr ⟨fun h => absurd h (setOffline_state env d), fun h => by cases h⟩
  | true =>
    change Agrees (iossIfaceSetOnline env d).state true
    by_cases h : d.state = .offline
    · rcases setOnline_state env h with h | h
      · exact .inr ⟨fun _ => rfl, fun _ => h⟩
      · exact .inl h
    · have hsame : iossIfaceSetOnline env d = d := if_pos h
      rw [hsame]
      cases hd : d.state with
      | offline => exact absurd hd h
      | online => exact .inr ⟨fun _ => rfl, fun _ => rfl⟩
      | error => exact .inl rfl

-- ---------------------------------------------------------------------------
-- No update is lost
-- ---------------------------------------------------------------------------

def Watched.wanted (c : Bool) (s : Watched w) : Bool := s.registered && (s.running && c && !s.offline && !s.unbinding)

/-- The work has done what the link asks for, or is going to look at it. -/
def Tracked (c : Bool) (s : Watched w) : Prop :=
  match s.phase with
  | .idle => Agrees s.dev.state (s.wanted c)
  | .begun | .fetched => s.registered = true
  | .decided up => up = s.wanted c

/-- Where no refresh is queued and none about to be, the work has what the stack
last said. A transition down has the lock, which the refresh it queued must
wait for. -/
structure Tracks (s : Watched w) : Prop where
  tracked : s.pending = true ∨ s.rtnl = .opened ∨ 0 < s.writers ∨
    ∃ c, (c = s.carrier ∨ s.linkwatch = true) ∧ Tracked c s
  closing : s.rtnl = .goingDown → s.pending = true ∨ s.phase = .begun ∨ s.registered = false
  lone : s.registered = false → s.phase = .idle ∨ s.pending = true

def FindsNetdev (s : Watched w) (a : WatchAction w) : Prop :=
  a = .workBegin → s.registered = false → s.dev.state ≠ .online

theorem Tracks.of_pending {s : Watched w} (h : s.pending = true) : Tracks s :=
  ⟨.inl h, fun _ => .inl h, fun _ => .inr h⟩

theorem Tracked.of_not_running {c c' : Bool} {s : Watched w} (h : Tracked c s) (hrun : s.running = false) :
    Tracked c' s := by
  have hwanted : ∀ c, s.wanted c = false := by simp [Watched.wanted, hrun]
  unfold Tracked at h ⊢
  rw [hwanted] at h ⊢
  exact h

theorem Tracks.register {s : Watched w} (h : Tracks s) (registers : Bool) (hfree : s.rtnl = .free)
    (hnew : s.registered = false) : Tracks (iossNetEventRegister registers s) := by
  cases registers with
  | true => exact .of_pending rfl
  | false =>
    rcases h.lone hnew with hidle | hpending
    · refine ⟨.inr (.inr (.inr ⟨s.carrier, .inl rfl, ?_⟩)), fun hdown => ?_, fun hreg => ?_⟩
      · simp [Tracked, iossNetEventRegister, hidle, Agrees]
      · rw [show s.rtnl = .goingDown from hdown] at hfree
        cases hfree
      · cases hreg
    · exact .of_pending hpending

theorem Tracks.stop {s : Watched w} (h : Tracks s) (hdown : s.rtnl = .goingDown) :
    Tracks { s with running := false, rtnl := .stopped } := by
  refine ⟨?_, fun h => (by cases h), h.lone⟩
  rcases h.tracked with hpending | hopened | hwriters | ⟨c, hc, htracked⟩
  · exact .inl hpending
  · rw [hdown] at hopened
    cases hopened
  · exact .inr (.inr (.inl hwriters))
  · rcases h.closing hdown with hpending | hbegun | hgone
    · exact .inl hpending
    · -- the work that waits for the lock has not looked yet
      refine .inr (.inr (.inr ⟨c, hc, ?_⟩))
      simpa [Tracked, hbegun] using htracked
    · rcases h.lone hgone with hidle | hpending
      · refine .inr (.inr (.inr ⟨c, hc, ?_⟩))
        simpa [Tracked, hidle, Watched.wanted, hgone] using htracked
      · exact .inl hpending

theorem Tracks.linkwatch {s : Watched w} (h : Tracks s) (hfree : s.rtnl = .free) (hrun : s.running = false) :
    Tracks { s with linkwatch := false } := by
  refine ⟨?_, h.closing, h.lone⟩
  rcases h.tracked with hpending | hopened | hwriters | ⟨c, -, htracked⟩
  · exact .inl hpending
  · rw [hfree] at hopened
    cases hopened
  · exact .inr (.inr (.inl hwriters))
  · exact .inr (.inr (.inr ⟨s.carrier, .inl rfl, htracked.of_not_running hrun⟩))

theorem Tracks.workBegin {s : Watched w} (hfinds : s.registered = false → s.dev.state ≠ .online) :
    Tracks { s with pending := false, phase := if s.registered then .begun else .idle } := by
  cases hreg : s.registered with
  | true =>
    refine ⟨.inr (.inr (.inr ⟨s.carrier, .inl rfl, rfl⟩)), fun _ => .inr (.inl rfl), fun hgone => ?_⟩
    cases hgone
  | false =>
    refine ⟨.inr (.inr (.inr ⟨s.carrier, .inl rfl, ?_⟩)), fun _ => .inr (.inr rfl), fun _ => .inl rfl⟩
    simp [Tracked, Agrees, Watched.wanted, hfinds hreg]

theorem Tracks.workFetch {s : Watched w} (h : Tracks s) (hbegun : s.phase = .begun) (hfree : s.rtnl = .free) :
    Tracks { s with phase := .fetched } := by
  refine ⟨?_, fun hdown => ?_, fun hgone => ?_⟩
  · refine h.tracked.imp id (Or.imp id (Or.imp id ?_))
    rintro ⟨c, hc, htracked⟩
    exact ⟨c, hc, by simpa [Tracked, hbegun] using htracked⟩
  · rw [show s.rtnl = .goingDown from hdown] at hfree
    cases hfree
  · have := h.lone hgone
    simp only [hbegun] at this
    simpa using this

theorem Tracks.workDecide {s : Watched w} (h : Tracks s) (hfetched : s.phase = .fetched) :
    Tracks { s with phase := .decided s.linkUp } := by
  refine ⟨?_, fun hdown => ?_, fun hgone => ?_⟩
  · refine h.tracked.imp id (Or.imp id (Or.imp id ?_))
    rintro ⟨c, -, htracked⟩
    have hreg : s.registered = true := by simpa [Tracked, hfetched] using htracked
    exact ⟨s.carrier, .inl rfl, by simp [Tracked, Watched.wanted, Watched.linkUp, hreg]⟩
  · have := h.closing hdown
    simpa [hfetched] using this
  · have := h.lone hgone
    simpa [hfetched] using this

theorem Tracks.workAct {s : Watched w} {up : Bool} (env : LinkEnv w) (h : Tracks s) (hdecided : s.phase = .decided up) :
    Tracks { s with dev := iossRefreshWork env true up s.dev, phase := .idle } := by
  refine ⟨?_, fun hdown => ?_, fun _ => .inl rfl⟩
  · refine h.tracked.imp id (Or.imp id (Or.imp id ?_))
    rintro ⟨c, hc, htracked⟩
    have hup : up = s.wanted c := by simpa [Tracked, hdecided] using htracked
    subst hup
    exact ⟨c, hc, refreshWork_agrees env _ s.dev⟩
  · have := h.closing hdown
    simpa [hdecided] using this

theorem Tracks.step (s : Watched w) (a : WatchAction w) (h : Tracks s) (hfinds : FindsNetdev s a) :
    Tracks (s.step a) := by
  cases a <;> simp only [Watched.step]
  case register registers =>
    split
    · rename_i hg
      exact h.register registers hg.1 hg.2
    · exact h
  case «open» =>
    split
    · exact ⟨.inr (.inl rfl), fun h => (by cases h), h.lone⟩
    · exact h
  case up | close | unregister | queue =>
    split
    · exact .of_pending rfl
    · exact h
  case stop =>
    split
    · exact h.stop ‹_›
    · exact h
  case closed =>
    split
    · rename_i hstopped
      refine ⟨?_, fun h => (by cases h), h.lone⟩
      refine h.tracked.imp id (Or.imp (fun hopened => ?_) id)
      rw [hstopped] at hopened
      cases hopened
    · exact h
  case carrier on =>
    refine ⟨h.tracked.imp id (Or.imp id (Or.imp id ?_)), h.closing, h.lone⟩
    rintro ⟨c, -, htracked⟩
    exact ⟨c, .inr rfl, htracked⟩
  case linkwatch =>
    split
    · rename_i hg
      split
      · exact .of_pending rfl
      · rename_i hrun
        exact h.linkwatch hg.1 (by simpa using hrun)
    · exact h
  case store offline => exact ⟨.inr (.inr (.inl (Nat.succ_pos _))), h.closing, h.lone⟩
  case unbind => exact ⟨.inr (.inr (.inl (Nat.succ_pos _))), h.closing, h.lone⟩
  case workBegin =>
    split
    · exact .workBegin (hfinds rfl)
    · exact h
  case workFetch =>
    split
    · rename_i hg
      exact h.workFetch hg.1 hg.2
    · exact h
  case workDecide =>
    split
    · exact h.workDecide ‹_›
    · exact h
  case workAct env =>
    split
    · exact h.workAct env ‹_›
    · exact h

def watch (dev : Device w) (running carrier offline : Bool) : Watched w := { dev, running, carrier, offline }

theorem watch_tracks {dev : Device w} (hdev : dev.state = .offline) (running carrier offline : Bool) :
    Tracks (watch dev running carrier offline) := by
  refine ⟨.inr (.inr (.inr ⟨carrier, .inl rfl, ?_⟩)), fun h => (by cases h), fun _ => .inl rfl⟩
  simp [Tracked, watch, Agrees, Watched.wanted, hdev]

structure Watched.Quiet (s : Watched w) : Prop where
  pending : s.pending = false
  writers : s.writers = 0
  idle : s.phase = .idle
  opened : s.rtnl ≠ .opened
  linkwatch : s.linkwatch = false

/-- However the link, the switches and the refreshes are interleaved: once all is
quiet, the interface is online just if its netdevice is there, running, with a
carrier, and neither offline nor being unbound, or it has failed for good. The
one exception is a refresh that finds the netdevice gone while the interface is
still online. -/
theorem quiet_interface_follows_link (dev : Device w) (hdev : dev.state = .offline) (running carrier offline : Bool)
    (as : List (WatchAction w)) (hfinds : Meets Watched.step FindsNetdev (watch dev running carrier offline) as)
    (hquiet : (run Watched.step (watch dev running carrier offline) as).Quiet) :
    (run Watched.step (watch dev running carrier offline) as).dev.state = .error ∨
      ((run Watched.step (watch dev running carrier offline) as).dev.state = .online ↔
        ((run Watched.step (watch dev running carrier offline) as).registered &&
          (run Watched.step (watch dev running carrier offline) as).linkUp) = true) := by
  have htracks := run_inv Tracks.step (watch_tracks hdev running carrier offline) hfinds
  generalize run Watched.step (watch dev running carrier offline) as = s at htracks hquiet ⊢
  rcases htracks.tracked with hpending | hopened | hwriters | ⟨c, hc, htracked⟩
  · rw [hquiet.pending] at hpending
    cases hpending
  · exact absurd hopened hquiet.opened
  · rw [hquiet.writers] at hwriters
    exact absurd hwriters (Nat.lt_irrefl 0)
  · obtain rfl : c = s.carrier := by simpa [hquiet.linkwatch] using hc
    unfold Tracked at htracked
    rw [hquiet.idle] at htracked
    exact htracked

/-- Up with the netdevice, and down again with it. The refresh of the way down
waits for the lock that the stack has until the netdevice is gone. -/
def upAndDown : List (WatchAction 32) :=
  [.register true, .workBegin, .workFetch, .workDecide, .workAct sampleLink, .close, .workBegin, .stop, .unregister,
    .workFetch, .workDecide, .workAct sampleLink, .workBegin]

theorem finds_of_ne {s : Watched w} {a : WatchAction w} (h : a ≠ .workBegin) : FindsNetdev s a := fun ha => absurd ha h

theorem finds_of_registered {s : Watched w} {a : WatchAction w} (h : s.registered = true) : FindsNetdev s a := by
  intro _ hgone
  rw [h] at hgone
  cases hgone

theorem quiet_interface_follows_link_up_and_down :
    let s := run Watched.step (watch (Device.init sampleChannels) true true false) upAndDown
    s.dev.state = .error ∨ (s.dev.state = .online ↔ (s.registered && s.linkUp) = true) := by
  apply quiet_interface_follows_link _ rfl
  · refine ⟨finds_of_ne (by simp), finds_of_registered rfl, finds_of_ne (by simp), finds_of_ne (by simp), finds_of_ne (by simp),
      finds_of_ne (by simp), finds_of_registered rfl, finds_of_ne (by simp), finds_of_ne (by simp), finds_of_ne (by simp),
      finds_of_ne (by simp), finds_of_ne (by simp), ?_, trivial⟩
    intro _ _
    decide +kernel
  · constructor <;> decide +kernel

-- ---------------------------------------------------------------------------
-- A netdevice that goes first
-- ---------------------------------------------------------------------------

structure Stranded (s : Watched w) : Prop where
  gone : s.registered = false
  idle : s.phase = .idle
  online : s.dev.state = .online

/-- A refresh that finds no netdevice does nothing. -/
theorem Stranded.step (s : Watched w) (a : WatchAction w) (h : Stranded s) (ha : ∀ registers, a ≠ .register registers) :
    Stranded (s.step a) := by
  cases a <;> simp only [Watched.step]
  case register registers => exact absurd rfl (ha registers)
  case workBegin =>
    split
    · exact ⟨h.gone, by simp [h.gone], h.online⟩
    · exact h
  case workFetch | workDecide => simpa [h.idle] using h
  case workAct env =>
    rw [h.idle]
    exact h
  case linkwatch =>
    split
    · split <;> exact ⟨h.gone, h.idle, h.online⟩
    · exact h
  case unregister =>
    rw [if_neg (by simp [h.gone])]
    exact h
  all_goals first | (split <;> exact ⟨h.gone, h.idle, h.online⟩) | exact ⟨h.gone, h.idle, h.online⟩

/-- Where a refresh begins after its netdevice has gone, and the interface is
still online, it stays online whatever is asked of it, until a netdevice comes
again. -/
theorem gone_netdev_stays_online (s₀ : Watched w) (as bs : List (WatchAction w))
    (hgone : (run Watched.step s₀ as).registered = false) (hidle : (run Watched.step s₀ as).phase = .idle)
    (honline : (run Watched.step s₀ as).dev.state = .online) (hbs : ∀ registers, .register registers ∉ bs) :
    (run Watched.step s₀ (as ++ .workBegin :: bs)).dev.state = .online := by
  rw [run_append]
  have hmeets : Meets Watched.step (fun _ a => ∀ registers, a ≠ .register registers) (run Watched.step s₀ as)
      (.workBegin :: bs) := by
    apply Meets.of_forall
    rintro a ha s registers rfl
    rcases List.mem_cons.mp ha with heq | hmem
    · cases heq
    · exact hbs registers hmem
  exact (run_inv Stranded.step ⟨hgone, hidle, honline⟩ hmeets).online

/-- Up, and then the interface is closed and its netdevice unregistered before
the refresh begins. -/
def goneFirst : List (WatchAction 32) :=
  [.register true, .workBegin, .workFetch, .workDecide, .workAct sampleLink, .close, .stop, .unregister]

theorem gone_netdev_stays_online_offline_ignored :
    (run Watched.step (watch (Device.init sampleChannels) true true false)
      (goneFirst ++ .workBegin :: [.store true, .queue, .workBegin, .unbind, .queue, .workBegin])).dev.state = .online := by
  apply gone_netdev_stays_online
  · decide +kernel
  · decide +kernel
  · decide +kernel
  · intro registers
    simp

end IpaOffload.Ioss
