import SmartDialer.Protocol.AgentSweeps
import SmartDialer.Protocol.Vouched

/-!
# Taking an agent away from a call

A sweep that takes an agent away cancels the call it saw the agent bound to, and then writes
to the agent provided its `state_version` is what it saw. But `bind_call` leaves the version
alone. A call that is bound between the look-up and the write is neither cancelled nor in the
way of the write.

In the runs in which no live call is bound to an agent while a sweep has it in hand, at the
version it has, the version does say that the call is the one that was cancelled.
-/

namespace SmartDialer

open Store Conc

/-! ## Agents and their calls -/

/-- The call is over. -/
def CallEnded (callId : String) (s : State) : Prop :=
  ∃ d ∈ s.calls.get callId, isTerminal d.state = true

instance (callId : String) (s : State) : Decidable (CallEnded callId s) :=
  inferInstanceAs (Decidable (∃ d ∈ _, _))

/-- The agent is bound to no call, or to one that is over. -/
def Agent.Clear (a : Agent) (s : State) : Prop := ∀ callId ∈ a.currentCallId, CallEnded callId s

instance (a : Agent) (s : State) : Decidable (a.Clear s) :=
  inferInstanceAs (Decidable (∀ callId ∈ _, _))

/-- The call of every agent is there. -/
def BoundStored (s : State) : Prop :=
  ∀ k a, s.agents.get k = some a → ∀ callId ∈ a.currentCallId, (s.calls.get callId).isSome = true

/-- The operation takes the agent away, as recovery does. -/
def Op.TakesAway (a : Agent) : Op → Prop
  | .releaseExpiredAgentLease agent now =>
      agent.id = a.id ∧ AgentRepository.leaseUnchanged agent now a = true
  | .transitionAgent agentId fromState toState expectedVersion =>
      toState = .offline ∧ agentId = a.id
        ∧ AgentRepository.movable fromState expectedVersion a = true
  | _ => False

instance (a : Agent) (o : Op) : Decidable (o.TakesAway a) := by
  unfold Op.TakesAway
  rcases o <;> infer_instance

/-! ## The runs -/

/-- The agent, as it was at that version. -/
def Agent.sameVersion (a x : Agent) : Bool := x.id == a.id && x.stateVersion == a.stateVersion

/-- A sweep that takes agents away has one of them in hand; another sweep has none. -/
def Op.lists (p : Agent → Bool) : (o : Op) → Except Exn (Ans o) → Option Bool
  | .findExpiredAgentLeases _ _, .ok agents => some (agents.any p)
  | .findHeartbeatExpired _ _, .ok agents => some (agents.any p)
  | .findExpiredBorrowerLeases _ _, .ok _ => some false
  | .findStaleCalls _ _, .ok _ => some false
  | .findExpiredWrapUps _ _ _, .ok _ => some false
  | _, .error _ => some false
  | _, _ => none

/-- No sweep has the agent in hand, at the version it has. -/
def Agent.Unlisted (a : Agent) (s : State) : Prop :=
  ∀ e ∈ s.log, engaged (Op.lists a.sameVersion) e.process s.log = false

instance (a : Agent) (s : State) : Decidable (a.Unlisted s) :=
  inferInstanceAs (Decidable (∀ e ∈ s.log, _))

/-- No live call is bound to an agent that a sweep has in hand. -/
def Op.BindsUnlisted (ch : Choice) (s : State) : Op → Prop
  | .bindCall agentId workerId callId =>
      ch.performs (.bindCall agentId workerId callId) = true → ¬CallEnded callId s →
        ∀ a ∈ s.agents.get agentId, AgentRepository.bindable workerId a = true → a.Unlisted s
  | _ => True

instance (ch : Choice) (s : State) (o : Op) : Decidable (o.BindsUnlisted ch s) := by
  unfold Op.BindsUnlisted
  rcases o <;> infer_instance

/--
The runs in which no `bind_call` of a live call takes effect on an agent between the look-up
of a sweep that reports it and the sweep's write, unless the agent has changed its version.
-/
def unlisted (cfg : Settings) : Policy (dialer cfg) where
  task _ := True
  run _ o ch s := o.BindsUnlisted ch s

instance (cfg : Settings) : (unlisted cfg).Checkable where
  task _ := .isTrue trivial
  run _ o ch s := inferInstanceAs (Decidable (o.BindsUnlisted ch s))

/-! ## The call of an agent is there -/

section

variable {cfg : Settings}

theorem vouchable_any (P : Policy (dialer cfg)) : Vouchable P fun _ _ => True where
  kept _ _ := trivial
  new _ _ _ _ _ _ _ := trivial
  found _ _ _ _ := trivial

/-- Calls start well formed, and the calls of agents are there. -/
structure WellBound (s : State) : Prop where
  calls : CallsWellFormed s
  agents : BoundStored s

/-- What a write makes of the call of an agent. -/
theorem currentCallId_of_rewritten {o : Op} {ch : Choice} {a a' : Agent}
    (h : Rewritten (o.agentWrite ch) a a') :
    a'.currentCallId = a.currentCallId ∨ a'.currentCallId = none
      ∨ ∃ agentId workerId callId, o = .bindCall agentId workerId callId
        ∧ a'.currentCallId = some callId := by
  cases h with
  | same => exact .inl rfl
  | written w hw hk hp =>
      cases o, w, hw using Op.agentWrite_cases with
      | tryReserveAgent _ _ _ _ => exact .inl rfl
      | releaseAgent _ _ _ _ _ => exact .inr (.inl rfl)
      | transitionAgent _ _ _ _ =>
          exact .inl (AgentRepository.timeAccountingUpdates_currentCallId ..)
      | bindCall _ _ callId => exact .inr (.inr ⟨_, _, callId, rfl, rfl⟩)
      | releaseExpiredAgentLease _ _ => exact .inr (.inl rfl)
      | heartbeat _ => exact .inl rfl

theorem boundStored_reachable {P : Policy (dialer cfg)} {w : World (dialer cfg)}
    (h : Reachable P WellBound w) : BoundStored w.st := by
  have hvouched : Reachable (P.also fun s o => Sound s o ∧ o.Vouched (fun _ _ => True) s)
      WellBound w := by
    refine h.also fun w hw i o ho => ⟨?_, ?_⟩
    · obtain ⟨hwf, hlaw⟩ := lifecycle_reachable (hw.unrestricted fun _ hs => hs.calls)
      exact ⟨hwf, hlaw i o ho⟩
    · exact vouched_reachable (c := {}) (vouchable_any (Policy.any (dialer cfg)))
        (fun _ hs => hs) (hw.unrestricted fun _ hs => hs.calls) ho trivial
  refine hvouched.invariant (I := BoundStored) (R := fun _ => True)
    (fun t _ => Prog.all_of_forall (fun _ => trivial) _) (fun s hs => hs.agents) ?_
    fun _ _ hs => hs
  intro i o c s _ hc hs k a' ha' callId hcall
  obtain ⟨-, hsound, hknown⟩ := hc
  have hev := (exec_evolve i c hsound.lawful hsound.wellFormed).1
  have hkept : (s.calls.get callId).isSome = true →
      ((exec i o c s).2.calls.get callId).isSome = true := by
    intro hsome
    obtain ⟨d, hd⟩ := Option.isSome_iff_exists.mp hsome
    obtain ⟨d', hd', -⟩ := hev.kept _ _ hd
    exact Option.isSome_iff_exists.mpr ⟨d', hd'⟩
  obtain ⟨a, ha, hre⟩ := agent_of_exec ha'
  -- the agent has the call it had, or none, or the one that is bound now, which is on file
  rcases currentCallId_of_rewritten hre with heq | hnone | ⟨_, _, callId', rfl, hbound⟩
  · exact hkept (hs k a ha callId (heq ▸ hcall))
  · rw [hnone] at hcall
    cases hcall
  · obtain rfl : callId' = callId := Option.some.inj (hbound.symm.trans hcall)
    obtain ⟨d, hd, -⟩ := hknown
    exact hkept (Option.isSome_iff_exists.mpr ⟨d, hd⟩)

end

/-! ## What one operation does to an agent and its call -/

section

variable {i : Nat} {o : Op} {ch : Choice} {s : State}

theorem CallEnded.mono {callId : String} {s s' : State} (h : CallEnded callId s)
    (hs : CallsEvolve s s') : CallEnded callId s' := by
  obtain ⟨d, hd, hterm⟩ := h
  obtain ⟨d', hd', hev⟩ := hs.kept _ _ hd
  refine ⟨d', hd', ?_⟩
  rw [hev.terminal hterm]
  exact hterm

/-- An agent at the version it had has the call it had, or one that is over, or is in no hands. -/
structure Agent.Kept (s s' : State) (a a' : Agent) : Prop where
  version : a.stateVersion ≤ a'.stateVersion
  call : a'.stateVersion = a.stateVersion →
    a'.currentCallId = a.currentCallId ∨ a'.Clear s' ∨ a.Unlisted s

/-- No agent is lost, and what sweeps have in hand keeps its call or its version. -/
def AgentsKept (s s' : State) : Prop :=
  ∀ k a, s.agents.get k = some a → ∃ a', s'.agents.get k = some a' ∧ a.Kept s s' a'

theorem Agent.Kept.refl {s s' : State} (a : Agent) : a.Kept s s' a := ⟨le_rfl, fun _ => .inl rfl⟩

theorem agentsKept_of_eq {s s' : State} (h : s'.agents = s.agents) : AgentsKept s s' :=
  fun _ a ha => ⟨a, h ▸ ha, .refl a⟩

/-- A write to an agent moves its version, or is a heartbeat or a `bind_call`. -/
theorem agentsKept_exec (hev : CallsEvolve s (exec i o ch s).2) (hc : o.BindsUnlisted ch s) :
    AgentsKept s (exec i o ch s).2 := by
  by_cases hperf : ch.performs o = true
  · intro k a ha
    obtain ⟨a', ha', hre⟩ := agent_exec (i := i) (o := o) (c := ch) ha
    refine ⟨a', ha', ?_⟩
    have hk : a.id = k := Collection.key_of_get ha
    cases hre with
    | same => exact .refl a
    | written w hw hk' hp =>
        have hmoved : ∀ {a' : Agent}, a'.stateVersion = a.stateVersion + 1 →
            a.Kept s (exec i o ch s).2 a' := by
          intro a' hv
          exact ⟨by omega, fun heq => by omega⟩
        -- all but two of the writes move the version
        cases o, w, hw using Op.agentWrite_cases with
        | tryReserveAgent _ _ _ _ => exact hmoved rfl
        | releaseAgent _ _ _ _ _ => exact hmoved rfl
        | transitionAgent _ _ _ _ => exact hmoved rfl
        | bindCall agentId workerId callId =>
            refine ⟨le_rfl, fun _ => .inr ?_⟩
            -- a call that is over is harmless, and no other is bound to an agent on the list
            by_cases hend : CallEnded callId s
            · refine .inl fun callId' hcall => ?_
              obtain rfl : callId = callId' := Option.some.inj hcall
              exact hend.mono hev
            · have hid : a.id = agentId := hk'
              exact .inr (hc hperf hend a (hid ▸ hk ▸ ha) hp)
        | releaseExpiredAgentLease _ _ => exact hmoved rfl
        | heartbeat _ => exact ⟨le_rfl, fun _ => .inl rfl⟩
  · rw [exec_of_not_performs (by simpa using hperf)]
    exact agentsKept_of_eq rfl

end

/-! ## The logic -/

section

variable {cfg : Settings} {i : Nat}

/-- What is known, in every run, of the state and of what is awaited. -/
structure SoundBound (s : State) (o : Op) : Prop extends Sound s o where
  stored : BoundStored s

/-- Calls evolve, and what is in the hands of a sweep keeps its call or its version. -/
def holding (cfg : Settings) : Logic ((unlisted cfg).also SoundBound) Unit where
  Inv _ := True
  Guar i s s' := CallsEvolve s.1 s'.1 ∧ AgentsKept s.1 s'.1
    ∧ ∀ j, j ≠ i → ∀ p, engaged (Op.lists p) j s'.1.log = engaged (Op.lists p) j s.1.log

theorem holding_guar {o : Op} {ch : Choice} {s : State × Unit}
    (hc : ((unlisted cfg).also SoundBound).run i o ch s.1) :
    (holding cfg).Guar i s ((exec i o ch s.1).2, ()) := by
  have hev := (exec_evolve i ch hc.2.lawful hc.2.wellFormed).1
  exact ⟨hev, agentsKept_exec hev hc.1, fun j hj p => engaged_exec_other hj o ch s.1⟩

theorem holding_verified : (holding cfg).Verified fun _ => True where
  init _ _ := ⟨(), trivial⟩
  task t _ i s _ := by
    refine wp_all_anyhow (R := fun _ => True) (Prog.all_of_forall (fun _ => trivial) _) ?_
    intro o _ s _ _ ch hc
    exact ⟨(), trivial, holding_guar hc, trivial⟩
  crash i s _ := ⟨(), trivial, .of_calls_eq rfl, agentsKept_of_eq rfl,
    fun _ hj _ => engaged_crash_other hj s.1⟩

/-- The logic in which process `i` also promises to take no agent away from a live call. -/
def tidy (i : Nat) (cfg : Settings) : Logic ((unlisted cfg).also SoundBound) Unit :=
  (holding cfg).promising i fun s s' => ∀ o r, s'.1.log = .answered i o r :: s.1.log →
    ∀ k a, s.1.agents.get k = some a → o.TakesAway a → a.Clear s.1

/-- The sweep has the agent in hand; at that version its call, if `p`, or else it is clear. -/
structure Reported (i : Nat) (x : Agent) (p : Prop) (s : State × Unit) : Prop where
  listed : engaged (Op.lists x.sameVersion) i s.1.log = true
  agent : ∃ a, s.1.agents.get x.id = some a ∧ x.stateVersion ≤ a.stateVersion
    ∧ (a.stateVersion = x.stateVersion → p ∧ a.currentCallId = x.currentCallId ∨ a.Clear s.1)

/-- What is in hand stays in hand. -/
theorem Reported.step {x : Agent} {p : Prop} {s s' : State × Unit} (h : Reported i x p s)
    (hev : CallsEvolve s.1 s'.1) (hagents : AgentsKept s.1 s'.1)
    (hsame : engaged (Op.lists x.sameVersion) i s'.1.log
      = engaged (Op.lists x.sameVersion) i s.1.log) : Reported i x p s' := by
  refine ⟨hsame.trans h.listed, ?_⟩
  obtain ⟨a, ha, hle, hcall⟩ := h.agent
  obtain ⟨a', ha', hkept⟩ := hagents _ _ ha
  refine ⟨a', ha', hle.trans hkept.version, fun hv => ?_⟩
  have hva : a.stateVersion = x.stateVersion := le_antisymm (hv ▸ hkept.version) hle
  -- still at the version the sweep saw: then so was it before the step
  rcases hkept.call (hv.trans hva.symm) with heq | hclear | hfree
  · rcases hcall hva with ⟨hp, hbound⟩ | hclear
    · exact .inl ⟨hp, heq.trans hbound⟩
    · refine .inr fun callId hc => ?_
      exact (hclear callId (heq ▸ hc)).mono hev
  · exact .inr hclear
  · -- the sweep's own line is in the log
    obtain ⟨e, he, rfl⟩ := mem_of_engaged h.listed
    have hid : a.id = x.id := Collection.key_of_get ha
    have hver : a.sameVersion = x.sameVersion := by
      funext y
      rw [Agent.sameVersion, Agent.sameVersion, hid, hva]
    have hout := hfree e he
    rw [hver, h.listed] at hout
    cases hout

theorem reported_stable (x : Agent) (p : Prop) : (tidy i cfg).Stable i (Reported i x p) := by
  refine Logic.Stable.promising (Logic.stable_of_step ?_)
  intro j s s' hj hg _ h
  exact h.step hg.1 hg.2.1 (hg.2.2 i hj.symm _)

/-- At that version, the call of the agent is known to be over. -/
theorem Reported.clear {x : Agent} {s : State × Unit} (h : Reported i x True s)
    (hclear : ∀ a, s.1.agents.get x.id = some a → a.currentCallId = x.currentCallId →
      a.Clear s.1) : Reported i x False s := by
  obtain ⟨a, ha, hle, hcall⟩ := h.agent
  refine ⟨h.listed, a, ha, hle, fun hv => .inr ?_⟩
  rcases hcall hv with ⟨-, hbound⟩ | hdone
  · exact hclear a ha hbound
  · exact hdone

/-- What a sweep does with the agents it has in hand, until it looks for others. -/
def Op.Working (o : Op) : Prop := ∀ p a, o.lists p (.ok a) = none

theorem Reported.exec {x : Agent} {p : Prop} {o : Op} {ch : Choice} {s : State × Unit} {a : Ans o}
    (h : Reported i x p s) (ho : o.Working)
    (hc : ((unlisted cfg).also SoundBound).run i o ch s.1)
    (hr : (SmartDialer.exec i o ch s.1).1 = .ok a) :
    Reported i x p ((SmartDialer.exec i o ch s.1).2, ()) := by
  obtain ⟨hev, hagents, -⟩ := holding_guar (s := s) hc
  refine h.step hev hagents ?_
  rw [engaged_exec, hr, ho _ a]
  rfl

/-- The sweep has all these agents in hand, bound as it saw them. -/
def InLine (i : Nat) (xs : List Agent) : Assertion Unit := fun s => ∀ x ∈ xs, Reported i x True s

theorem inLine_stable (xs : List Agent) : (tidy i cfg).Stable i (InLine i xs) :=
  fun s s' hr h x hx => reported_stable x True s s' hr (h x hx)

/-- The same, and the call of one of them is over. -/
def Cleared (i : Nat) (xs : List Agent) (x : Agent) : Assertion Unit := fun s =>
  InLine i xs s ∧ Reported i x False s

theorem cleared_stable (xs : List Agent) (x : Agent) : (tidy i cfg).Stable i (Cleared i xs x) :=
  (inLine_stable xs).and (reported_stable x False)

/-- The triple of an operation that takes an agent away from no live call. -/
theorem tidy_atomic {o : Op} {A : Assertion Unit} {B : Except Exn (Ans o) → Assertion Unit}
    (ho : ∀ s, A s → ∀ k a, s.1.agents.get k = some a → o.TakesAway a → a.Clear s.1)
    (hB : ∀ ch s, ((unlisted cfg).also SoundBound).run i o ch s.1 → A s →
      B (exec i o ch s.1).1 ((exec i o ch s.1).2, ())) : (tidy i cfg).Atomic i o A B := by
  intro s _ hs ch hc
  refine ⟨(), trivial, ⟨holding_guar hc, fun _ o' r hlog => ?_⟩, hB ch s hc hs⟩
  obtain rfl := answered_exec hlog
  exact ho s hs

/-- An operation on the agents in hand, and what its answer says. -/
theorem working_atomic {o : Op} (ho : o.Working) {A : Assertion Unit} {xs : List Agent}
    (hA : ∀ s, A s → InLine i xs s)
    (hsafe : ∀ s, A s → ∀ k a, s.1.agents.get k = some a → o.TakesAway a → a.Clear s.1)
    {f : Ans o → Assertion Unit}
    (hf : ∀ ch s a, ((unlisted cfg).also SoundBound).run i o ch s.1 → A s →
      (exec i o ch s.1).1 = .ok a → InLine i xs ((exec i o ch s.1).2, ()) →
      f a ((exec i o ch s.1).2, ())) :
    (tidy i cfg).Atomic i o A (Returns f) := by
  refine tidy_atomic hsafe fun ch s hc hs => ?_
  generalize hr : (exec i o ch s.1).1 = r
  cases r with
  | error e => trivial
  | ok a => exact hf ch s a hc hs hr fun x hx => (hA s hs x hx).exec ho hc hr

/-! ## The sweeps -/

/-- A call that is to be cancelled is over afterwards, whatever the answer. -/
theorem ended_of_cancel {callId : String} {reason : Option String} {ch : Choice} {s : State}
    {answer : Option Call} {d : Call} (hs : Sound s (.transitionCall callId .cancelled reason))
    (hr : (exec i (.transitionCall callId .cancelled reason) ch s).1 = .ok answer)
    (hd : s.calls.get callId = some d) :
    CallEnded callId (exec i (.transitionCall callId .cancelled reason) ch s).2 := by
  have hwf := hs.wellFormed callId d hd
  cases hterm : isTerminal d.state with
  | true =>
      have hended : CallEnded callId s := ⟨d, hd, hterm⟩
      exact hended.mono (exec_evolve i ch hs.lawful hs.wellFormed).1
  | false =>
      have hguard : CallRepository.advanceable .cancelled d = true :=
        hwf.advanceable_iff.mpr ((isTerminal_eq_false_iff_rank d.state).mp hterm)
      exact ⟨_, transitionCall_get hr hd hguard, rfl⟩

/-- After the call it was bound to is cancelled, an agent at that version is clear. -/
theorem tidy_cancel {xs : List Agent} {x : Agent} (hx : x ∈ xs) (reason : String) :
    CancelOutline (tidy i cfg) i x reason (InLine i xs) (Cleared i xs x) where
  stable_before := inLine_stable xs
  stable_after := cleared_stable xs x
  unbound hnone s hs := by
    refine ⟨hs, (hs x hx).clear fun a _ hbound callId hcall => ?_⟩
    rw [hbound, hnone] at hcall
    cases hcall
  find callId hbound := by
    refine working_atomic (fun _ _ => rfl) (fun _ hs => hs) (fun _ _ _ _ _ => False.elim) ?_
    intro ch s found hc hs hr hline
    have hfound : s.1.calls.get callId = found := Except.ok.inj (exec_ok hr).1
    have hclear : (∀ call, found = some call → isTerminal call.state = true) →
        Cleared i xs x ((exec i (.findCallById callId) ch s.1).2, ()) := by
      intro hover
      refine ⟨hline, Reported.exec ((hs x hx).clear fun a ha hsame callId' hcall => ?_)
        (fun _ _ => rfl) hc hr⟩
      obtain rfl : callId = callId' := Option.some.inj ((hsame.trans hbound).symm.trans hcall)
      obtain ⟨d, hd⟩ := Option.isSome_iff_exists.mp (hc.2.stored _ a ha callId hcall)
      exact ⟨d, hd, hover d (hfound.symm.trans hd)⟩
    cases found with
    | none => exact hclear fun _ h => by cases h
    | some call =>
        rw [OnBound]
        split
        · rename_i hterm
          refine hclear fun call' heq => ?_
          obtain rfl := Option.some.inj heq
          exact hterm
        · exact ⟨Collection.key_of_get hfound, hline⟩
  cancel callId hbound := by
    refine working_atomic (fun _ _ => rfl) (fun _ hs => hs) (fun _ _ _ _ _ => False.elim) ?_
    intro ch s answer hc hs hr hline
    refine ⟨hline, ?_⟩
    cases hd : s.1.calls.get callId with
    | some d =>
        refine (hline x hx).clear fun a _ hsame callId' hcall => ?_
        obtain rfl : callId = callId' := Option.some.inj ((hsame.trans hbound).symm.trans hcall)
        exact ended_of_cancel hc.2.toSound hr hd
    | none =>
        -- the agent is not bound to it any more
        refine Reported.exec ((hs x hx).clear fun a ha hsame callId' hcall => ?_)
          (fun _ _ => rfl) hc hr
        have hsome := hc.2.stored _ a ha callId (hsame.trans hbound)
        rw [hd] at hsome
        cases hsome
  releaseBorrower call := by
    refine working_atomic (fun _ _ => rfl) (fun _ hs => hs.1) (fun _ _ _ _ _ => False.elim) ?_
    intro ch s answer hc hs hr hline
    exact ⟨hline, hs.2.exec (fun _ _ => rfl) hc hr⟩

/-- An agent that is at the version it was reported at is clear. -/
theorem Reported.clear_of_version {x a : Agent} {s : State × Unit} (h : Reported i x False s)
    (ha : s.1.agents.get x.id = some a) (hv : a.stateVersion = x.stateVersion) : a.Clear s.1 := by
  obtain ⟨a', ha', -, hcall⟩ := h.agent
  obtain rfl : a' = a := Option.some.inj (ha'.symm.trans ha)
  exact (hcall hv).resolve_left fun hno => hno.1

theorem tidy_recoverAgentLease (now : Time) {xs : List Agent} {x : Agent} (hx : x ∈ xs)
    {s : State × Unit} (hs : InLine i xs s) :
    (tidy i cfg).wp i (RecoveryWorker.recoverAgentLease cfg now x)
      (Returns fun _ => InLine i xs) s := by
  have hrelease : (tidy i cfg).Atomic i (.releaseExpiredAgentLease x now) (Cleared i xs x)
      (Returns fun _ => InLine i xs) := by
    refine working_atomic (fun _ _ => rfl) (fun _ hs => hs.1) ?_ fun _ _ _ _ _ _ h => h
    rintro s ⟨-, hdone⟩ k a ha ⟨hid, hp⟩
    obtain rfl : a.id = k := Collection.key_of_get ha
    obtain ⟨-, hversion, -⟩ := AgentRepository.leaseUnchanged_iff.mp hp
    exact hdone.clear_of_version (hid ▸ ha) hversion
  refine wp_bind_returns ((tidy_cancel hx _).wp_cancelBoundCall hs) fun _ s₁ hs₁ => ?_
  exact wp_bind_returns (Logic.wp_perform (cleared_stable xs x) hrelease hs₁) fun _ _ h => h

theorem tidy_logOutAgent {xs : List Agent} {x : Agent} (hx : x ∈ xs) {s : State × Unit}
    (hs : InLine i xs s) :
    (tidy i cfg).wp i (RecoveryWorker.logOutAgent cfg x) (Returns fun _ => InLine i xs) s := by
  have hmove : (tidy i cfg).Atomic i (.transitionAgent x.id x.state .offline x.stateVersion)
      (Cleared i xs x) (Returns fun _ => InLine i xs) := by
    refine working_atomic (fun _ _ => rfl) (fun _ hs => hs.1) ?_ fun _ _ _ _ _ _ h => h
    rintro s ⟨-, hdone⟩ k a ha ⟨-, hid, hp⟩
    obtain rfl : a.id = k := Collection.key_of_get ha
    exact hdone.clear_of_version (hid ▸ ha) (AgentRepository.movable_iff.mp hp).2
  refine wp_bind_returns ((tidy_cancel hx _).wp_cancelBoundCall hs) fun _ s₁ hs₁ => ?_
  refine wp_bind_returns (f := fun _ => InLine i xs) ?_ fun _ _ h => h
  rw [Agents.transitionAgent]
  split
  · trivial
  · exact Logic.wp_perform (cleared_stable xs x) hmove hs₁

/-- What a look-up of recovery reports is in hand, as it is. -/
theorem tidy_lookUp {o : Op} {f : Ans o → List Agent}
    (hsafe : ∀ a, ¬o.TakesAway a)
    (hlists : ∀ p r, o.lists p (.ok r) = some ((f r).any p))
    (hfinds : ∀ ch s r, (exec i o ch s).1 = .ok r → ∀ x ∈ f r, s.agents.get x.id = some x)
    (hstill : ∀ ch, o.agentWrite ch = none) :
    (tidy i cfg).Atomic i o (fun _ => True) (Returns fun r => InLine i (f r)) := by
  refine tidy_atomic (fun _ _ _ a _ h => (hsafe a h).elim) fun ch s hc _ => ?_
  generalize hr : (exec i o ch s.1).1 = r
  cases r with
  | error e => trivial
  | ok r =>
      intro x hx
      have hget : (exec i o ch s.1).2.agents.get x.id = some x := by
        rw [agents_of_ok hr, hstill ch]
        exact hfinds ch s.1 r hr x hx
      refine ⟨?_, x, hget, le_rfl, fun _ => .inl ⟨trivial, rfl⟩⟩
      have hself : x.sameVersion x = true := by simp [Agent.sameVersion]
      rw [engaged_exec, hr, hlists]
      exact List.any_eq_true.mpr ⟨x, hx, hself⟩

theorem tidy_sweepExpiredAgentLeases (now : Time) (s : State × Unit) :
    (tidy i cfg).wp i (RecoveryWorker.sweepExpiredAgentLeases cfg now) Anyhow s := by
  have hfind : (tidy i cfg).Atomic i
      (.findExpiredAgentLeases now cfg.recoverySweepLimit) (fun _ => True)
      (Returns fun agents => InLine i agents) := by
    refine tidy_lookUp (fun _ => id) (fun _ _ => rfl) ?_ fun _ => rfl
    intro ch s agents hr x hx
    rw [← Except.ok.inj (exec_ok hr).1] at hx
    exact (Collection.mem_find.mp (Collection.mem_of_mem_limit hx)).1
  refine wp_bind_of_returns (Logic.wp_perform Logic.stable_true hfind trivial) ?_
  exact fun agents s' hs => wp_anyhow (wp_count_returns
    (fun x hx s hs => tidy_recoverAgentLease now hx hs) hs)

theorem tidy_sweepHeartbeatTimeouts (now : Time) (s : State × Unit) :
    (tidy i cfg).wp i (RecoveryWorker.sweepHeartbeatTimeouts cfg now) Anyhow s := by
  have hfind : (tidy i cfg).Atomic i
      (.findHeartbeatExpired (now - seconds cfg.agentHeartbeatTimeoutSeconds)
        cfg.recoverySweepLimit) (fun _ => True) (Returns fun agents => InLine i agents) := by
    refine tidy_lookUp (fun _ => id) (fun _ _ => rfl) ?_ fun _ => rfl
    intro ch s agents hr x hx
    rw [← Except.ok.inj (exec_ok hr).1] at hx
    exact (Collection.mem_find.mp (Collection.mem_of_mem_limit hx)).1
  refine wp_bind_of_returns (Logic.wp_perform Logic.stable_true hfind trivial) ?_
  exact fun agents s' hs => wp_anyhow (wp_count_returns
    (fun x hx s hs => tidy_logOutAgent hx hs) hs)

theorem tidy_runSweeps (s : State × Unit) :
    (tidy i cfg).wp i (Task.program cfg .runSweeps) Anyhow s := by
  refine wp_runSweeps (fun o ho => ?_) tidy_sweepExpiredAgentLeases
    tidy_sweepHeartbeatTimeouts s
  refine tidy_atomic (fun _ _ _ a _ htakes => ?_) fun _ _ _ _ => trivial
  cases o with
  | releaseExpiredAgentLease _ _ => exact ho.elim
  | transitionAgent _ _ _ _ => exact absurd htakes.1 ho
  | _ => exact htakes.elim

/--
**Recovery takes agents away from no live call.** In every run in which no live call is bound
to an agent between the look-up of a sweep that reports it and the sweep's write: when a
recovery run releases an agent or takes it OFFLINE, the agent is bound to no call, or to one
that is over.
-/
theorem taken_away_clear {w : World (dialer cfg)}
    (h : Started (unlisted cfg) WellBound i .runSweeps w) {o : Op} (ho : w.Awaits i o)
    {k : String} {a : Agent} (ha : w.st.agents.get k = some a) (htakes : o.TakesAway a) :
    a.Clear w.st := by
  have hsound : ∀ w, Reachable (unlisted cfg) WellBound w → ∀ j o, w.Awaits j o →
      SoundBound w.st o := by
    intro w hw j o hj
    obtain ⟨hwf, hlaw⟩ := lifecycle_reachable (hw.unrestricted fun _ hs => hs.calls)
    exact ⟨⟨hwf, hlaw j o hj⟩, boundStored_reachable hw⟩
  have hstarted := h.also hsound
  have hv : (holding cfg).Verified WellBound := ⟨fun _ _ => ⟨(), trivial⟩,
    holding_verified.task, holding_verified.crash⟩
  have hprog : ∀ s : State × Unit, (holding cfg).Inv s →
      (tidy i cfg).wp i ((dialer cfg).prog .runSweeps) (fun _ _ => True) s :=
    fun s _ => tidy_runSweeps s
  have hcrash : ∀ (s : State × Unit) (γ : Unit), ∀ o r,
      (crash i s.1, γ).1.log = .answered i o r :: s.1.log →
      ∀ k a, s.1.agents.get k = some a → o.TakesAway a → a.Clear s.1 := by
    intro s γ o r hlog
    cases (List.cons.inj hlog).1
  -- it is not a `bind_call`, so the run allows it
  have hc : ((unlisted cfg).also SoundBound).run i o {} w.st := by
    refine ⟨?_, hsound w h.reachable i o ho⟩
    cases o with
    | bindCall _ _ _ => exact htakes.elim
    | _ => trivial
  obtain ⟨_, _, -, hpromise⟩ := hv.promised hprog hcrash hstarted ho hc
  exact hpromise o _ (exec_log i o {} w.st) k a ha htakes

end

/-! ## Thirty-one seconds before a bind -/

/-- A dial that is about to bind its call. -/
def beforeBind : List (Label (dialer {})) :=
  dialOnce :: List.replicate 4 (.run 0 {}) ++ [.run 0 { newId := "call" }]
    ++ List.replicate 3 (.run 0 {})

/-- What the environment has to say after 31 seconds. -/
def at31 : Choice where
  now := seconds 31

/-- The sweep finds the agent without a call, the call is bound, and the agent is taken away. -/
theorem taken_away_from_call :
    ∃ w, ∃ o : Op, ∃ a : Agent, Started (Policy.any (dialer {})) Fresh 1 .runSweeps w
      ∧ w.Awaits 1 o ∧ w.st.agents.get "agent" = some a ∧ o.TakesAway a ∧ ¬a.Clear w.st := by
  obtain ⟨w, hw, htest⟩ := Started.of_play (Policy.any (dialer {})) oneAgent_fresh beforeBind
    [.run 1 at31, .run 1 at31, .run 0 at31] 1 .runSweeps trivial
    (fun w => (w.awaited 1).any fun o : Op => (w.st.agents.get "agent").any fun a : Agent =>
      decide (o.TakesAway a ∧ ¬a.Clear w.st))
    (by decide +kernel)
  obtain ⟨o, ho, hrest⟩ := Option.any_eq_true _ _ |>.mp htest
  obtain ⟨a, ha, hrest⟩ := Option.any_eq_true _ _ |>.mp hrest
  obtain ⟨htakes, hlive⟩ := of_decide_eq_true hrest
  exact ⟨w, o, a, hw, awaits_of_awaited ho, ha, htakes, hlive⟩

theorem oneAgent_wellBound : WellBound oneAgent where
  calls := oneAgent_fresh.noCalls.wellFormed
  agents k a ha callId hcall := by
    obtain rfl := List.mem_singleton.mp (Collection.mem_of_get ha)
    cases hcall

/-- A call that was bound in time is cancelled before the agent is taken away. -/
theorem taken_away_clear_oneDial :
    ∃ w, ∃ o : Op, ∃ a : Agent, Started (unlisted {}) WellBound 1 .runSweeps w ∧ o.TakesAway a
      ∧ a.currentCallId = some "call" ∧ a.Clear w.st := by
  obtain ⟨w, hw, htest⟩ := Started.of_play (unlisted {}) oneAgent_wellBound oneDial
    (List.replicate 5 (.run 1 at31)) 1 .runSweeps trivial
    (fun w => (w.awaited 1).any fun o : Op => (w.st.agents.get "agent").any fun a : Agent =>
      decide (o.TakesAway a ∧ a.currentCallId = some "call"))
    (by decide +kernel)
  obtain ⟨o, ho, hrest⟩ := Option.any_eq_true _ _ |>.mp htest
  obtain ⟨a, ha, hrest⟩ := Option.any_eq_true _ _ |>.mp hrest
  obtain ⟨htakes, hcall⟩ := of_decide_eq_true hrest
  exact ⟨w, o, a, hw, htakes, hcall, taken_away_clear hw (awaits_of_awaited ho) ha htakes⟩

end SmartDialer
