import SmartDialer.Protocol.Sweeping

/-!
# A second round of recovery

The sweeps of one round feed one another: a lease that is reclaimed frees an agent that is
then logged out, and a call that is ended releases its parties. None of them makes work for
itself, or for one that came before it, so after one round none of the five queries finds
anything (`Swept`). A round that finds nothing writes nothing.
-/

namespace SmartDialer

open Store Conc

variable {cfg : Settings} {i : Nat} {now : Time}

/-! ## Sweeps that find nothing -/

/-- What a query answers in one state, it answers in any with the same documents. -/
theorem wp_query {o : Op} {a : Ans o} {s : State}
    (h : ∀ c s', SameDocuments s' s → effect o c s' = (.ok a, s')) {s' : State × Unit}
    (hs : SameDocuments s'.1 s) :
    (secluded cfg i).wp i (await o)
      (Finishes fun b s'' => b = a ∧ SameDocuments s''.1 s) s' := by
  refine wp_effect fun c => ⟨a, ?_, rfl, ?_⟩
  · rw [h c s'.1 hs]
  · rw [h c s'.1 hs]
    exact (SameDocuments.record ..).trans hs

/-- A sweep whose query finds nothing is over, and its count is `0`. -/
theorem wp_guarded_nothing {name : String}
    {set : Nat → RecoverySweepCounts → RecoverySweepCounts} {o : Op}
    {f : Ans o → Async Nat} {a : Ans o} {s : State} {s' : State × Unit} (hset : set 0 {} = {})
    (ho : ∀ c s', SameDocuments s' s → effect o c s' = (.ok a, s')) (hf : f a = .ret 0)
    {counts : RecoverySweepCounts} (hs : counts = {} ∧ SameDocuments s'.1 s) :
    (secluded cfg i).wp i (RecoveryWorker.guarded name set ((await o).bind f) counts)
      (Finishes fun counts' s'' => counts' = {} ∧ SameDocuments s''.1 s) s' := by
  obtain ⟨rfl, hsame⟩ := hs
  have hsweep : (secluded cfg i).wp i ((await o).bind f)
      (Finishes fun n s'' => n = 0 ∧ SameDocuments s''.1 s) s' := by
    refine wp_bind_finishes (wp_query ho hsame) fun b s₁ hs₁ => ?_
    obtain ⟨rfl, hsame₁⟩ := hs₁
    rw [hf]
    exact ⟨rfl, hsame₁⟩
  refine wp_tryCatch_finishes (wp_bind_finishes hsweep fun n s₂ hs₂ => ?_)
  obtain ⟨rfl, hsame₂⟩ := hs₂
  exact ⟨hset, hsame₂⟩

theorem limit_nil {α : Type} (n : Int) : Collection.limit n ([] : List α) = [] := by
  rw [Collection.limit]
  split
  · rfl
  · exact List.take_nil

/-- Where no sweep finds anything, a round changes nothing, and counts nothing. -/
theorem wp_sweepAll_swept {s : State} (hs : Swept cfg now s) {s' : State × Unit}
    (hsame : SameDocuments s'.1 s) :
    (secluded cfg i).wp i (RecoveryWorker.sweepAll cfg now)
      (Finishes fun counts s'' => counts = {} ∧ SameDocuments s''.1 s) s' := by
  -- sweep by sweep: the query finds nothing, because the first round has left nothing to find
  have hagents : ∀ (c : Choice) t, SameDocuments t s →
      effect (.findExpiredAgentLeases now cfg.recoverySweepLimit) c t = (.ok [], t) := by
    intro c t ht
    rw [effect, AgentRepository.findExpiredAgentLeases, ht.agents, hs.agentLeases.find, limit_nil]
  refine wp_bind_finishes (wp_guarded_nothing rfl hagents rfl ⟨rfl, hsame⟩) fun _ s₁ hs₁ => ?_
  have hborrowers : ∀ (c : Choice) t, SameDocuments t s →
      effect (.findExpiredBorrowerLeases now cfg.recoverySweepLimit) c t = (.ok [], t) := by
    intro c t ht
    rw [effect, BorrowerRepository.findExpiredBorrowerLeases, ht.borrowers,
      hs.borrowerLeases.find, limit_nil]
  refine wp_bind_finishes (wp_guarded_nothing rfl hborrowers rfl hs₁) fun _ s₂ hs₂ => ?_
  have hcalls : ∀ (c : Choice) t, SameDocuments t s →
      effect (.findStaleCalls (now - seconds cfg.callStaleTimeoutSeconds)
        cfg.recoverySweepLimit) c t = (.ok [], t) := by
    intro c t ht
    rw [effect, CallRepository.findStaleCalls, ht.calls, hs.calls.find]
    exact congrArg (fun l => (Except.ok l, t)) (limit_nil _)
  refine wp_bind_finishes (wp_guarded_nothing rfl hcalls rfl hs₂) fun _ s₃ hs₃ => ?_
  have hsilent : ∀ (c : Choice) t, SameDocuments t s →
      effect (.findHeartbeatExpired (now - seconds cfg.agentHeartbeatTimeoutSeconds)
        cfg.recoverySweepLimit) c t = (.ok [], t) := by
    intro c t ht
    have hnone := hs.heartbeats.find
    rw [effect, AgentRepository.findHeartbeatExpired, ht.agents]
    exact congrArg (fun l => (Except.ok l, t))
      ((congrArg (Collection.limit cfg.recoverySweepLimit) hnone).trans (limit_nil _))
  refine wp_bind_finishes (wp_guarded_nothing rfl hsilent rfl hs₃) fun _ s₄ hs₄ => ?_
  have hwrapUps : ∀ (c : Choice) t, SameDocuments t s →
      effect (.findExpiredWrapUps (now - seconds (cfg.wrapUpSeconds + cfg.wrapUpSeconds * 2))
        cfg.recoverySweepLimit none) c t = (.ok [], t) := by
    intro c t ht
    -- the last query is the worker's own with no campaign, which filters nothing out
    have hover : (fun a : Agent => a.state == .wrapUp && decide (a.stateChangedAt
        ≤ now - seconds (cfg.wrapUpSeconds + cfg.wrapUpSeconds * 2))
        && (none : Option String).all (a.campaignId == ·)) = AgentRepository.wrapUpOver
          (now - seconds (cfg.wrapUpSeconds + cfg.wrapUpSeconds * 2)) := by
      funext a
      exact Bool.and_true _
    rw [effect, AgentRepository.findExpiredWrapUps, ht.agents, hover, hs.wrapUps.find]
    exact congrArg (fun l => (Except.ok l, t)) (limit_nil _)
  exact wp_guarded_nothing rfl hwrapUps rfl hs₄

/-! ## Two rounds -/

/--
**Recovery is idempotent.** Whatever a run left behind, of any tasks in any interleaving, with
failures, cancellations and crashes anywhere: a round of recovery that sees everything and is
not disturbed, and a second one at the same `now` after it. The second counts nothing, and
leaves every document as the first one did.
-/
theorem runSweeps_idempotent {w : World (dialer cfg)}
    (h : Reachable (Policy.any (dialer cfg)) CallsWellFormed w) (hlimit : WithinLimit cfg w.st)
    {env env' : Nat → Choice} (henv : ∀ n, (env n).fault = .none)
    (henv' : ∀ n, (env' n).fault = .none) (hnow : (env' 0).now = (env 0).now) {j : Nat} :
    ∃ counts s₁, (RecoveryWorker.runSweeps cfg).eval (solo i env) (w.st, 0) = (.ok counts, s₁)
      ∧ ∃ s₂, (RecoveryWorker.runSweeps cfg).eval (solo j env') (s₁.1, 0) = (.ok {}, s₂)
        ∧ SameDocuments s₂.1 s₁.1 := by
  have hsees : Sweepable cfg (env 0).now w.st :=
    ⟨(lifecycle_reachable h).1, hlimit.withinSight _⟩
  obtain ⟨counts, hcounts, -, hswept⟩ :=
    runSweeps_swept (i := i) sweepable_kept (fun _ hs => hs) hsees henv
  refine ⟨counts, _, Prod.ext hcounts rfl, ?_⟩
  generalize ((RecoveryWorker.runSweeps cfg).eval (solo i env) (w.st, 0)).2.1 = s₁ at hswept ⊢
  -- reading the clock is all that lies between the rounds
  have hsame : SameDocuments (exec j .utcNow (env' 0) s₁).2 s₁ := by
    rw [exec_faultless (henv' 0)]
    exact SameDocuments.record ..
  have hwp : (secluded cfg j).wp j (RecoveryWorker.sweepAll cfg (env 0).now)
      (Finishes fun counts s'' => counts = {} ∧ SameDocuments s''.1 s₁)
      ((exec j .utcNow (env' 0) s₁).2, ()) := wp_sweepAll_swept hswept hsame
  obtain ⟨counts', hcounts', rfl, hdocs⟩ := eval_solo_of_wp (n := 1) (fun n _ => henv' n) hwp
  rw [← hnow, ← eval_runSweeps (henv' 0)] at hcounts' hdocs
  exact ⟨_, Prod.ext hcounts' rfl, hdocs⟩

/--
A worker that dies when its call is INITIATED, and two rounds of recovery an hour later, with
a provider that does not answer.
-/
theorem runSweeps_idempotent_crash :
    ∃ w, Reachable (Policy.any (dialer {})) CallsWellFormed w
      ∧ (∃ d ∈ w.st.calls.get "call", d.state = .initiated)
      ∧ ∃ counts s₁, (RecoveryWorker.runSweeps {}).eval
          (solo 1 fun _ => { now := seconds 3600, callStatus := .error .timeout }) (w.st, 0)
          = (.ok counts, s₁)
        ∧ ∃ s₂, (RecoveryWorker.runSweeps {}).eval (solo 1 fun _ => { now := seconds 3600 })
            (s₁.1, 0) = (.ok {}, s₂)
          ∧ SameDocuments s₂.1 s₁.1 := by
  obtain ⟨w, hw, htest⟩ := Reachable.of_play (Policy.any (dialer {}))
    oneAgent_fresh.noCalls.wellFormed (oneDial.dropLast ++ [.crash 0])
    (fun w => decide ((∃ d ∈ w.st.calls.get "call", d.state = .initiated)
      ∧ WithinLimit {} w.st))
    (by decide +kernel)
  obtain ⟨hcall, hlimit⟩ := of_decide_eq_true htest
  have hmute : ∀ n : Nat, ((fun _ => { now := seconds 3600, callStatus := .error .timeout } :
      Nat → Choice) n).fault = .none := fun _ => rfl
  have hagain : ∀ n : Nat, ((fun _ => { now := seconds 3600 } : Nat → Choice) n).fault = .none :=
    fun _ => rfl
  exact ⟨w, hw, hcall, runSweeps_idempotent hw hlimit hmute hagain rfl⟩

end SmartDialer
