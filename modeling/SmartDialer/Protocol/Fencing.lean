import SmartDialer.Protocol.Ledger

/-!
# Who may release whom

A reservation is of one party, by one worker. The document keeps the name of the
worker, and a release is fenced by that name alone. What the log adds is which
reservation the name stands for: the last one that was answered. A release made for an
earlier reservation of the same party therefore takes the later one away exactly when
both workers have the same name, which all dialer workers of one process have, and the
document is in a state the release acts on.
-/

namespace SmartDialer

open Store Conc

/-! ## Parties and their reservations -/

/-- The agent or borrower with this id. -/
def State.document (s : State) : Side → String → Option (Agent ⊕ Borrower)
  | .agent, id => (s.agents.get id).map .inl
  | .borrower, id => (s.borrowers.get id).map .inr

/-- Whom a party is reserved by. -/
def State.reservedBy (s : State) : Side → String → Option String
  | .agent, id => (s.agents.get id).bind Agent.reservedBy
  | .borrower, id => (s.borrowers.get id).bind Borrower.reservedBy

/-- Whom an operation reserves, and for which worker. -/
def Op.reserves : Op → Option (Side × String × String)
  | .tryReserveAgent _ agentId workerId _ => some (.agent, agentId, workerId)
  | .tryReserveBorrower _ borrowerId workerId _ => some (.borrower, borrowerId, workerId)
  | _ => none

/-- Whom an operation releases, and in the name of which worker. -/
def Op.releases : Op → Option (Side × String × String)
  | .releaseAgent agentId workerId _ _ _ => some (.agent, agentId, workerId)
  | .releaseBorrower borrowerId workerId _ _ _ _ => some (.borrower, borrowerId, workerId)
  | _ => none

/-- The document is in a state from which the operation releases. -/
def Op.releasesFrom : Op → Agent ⊕ Borrower → Bool
  | .releaseAgent _ _ target actor _, .inl a => (allowedSources target actor).contains a.state
  | .releaseBorrower .., .inr b => BorrowerRepository.releasableStatuses.contains b.status
  | _, _ => false

/--
The worker by whom an entry of the log reserves a party, and whether it was told so: an
operation that raised may have reserved all the same.
-/
def Entry.reservation (side : Side) (id : String) : Entry → Option (String × Bool)
  | .answered _ (.tryReserveAgent _ agentId workerId _) r =>
      if side = .agent ∧ agentId = id then
        match r with
        | .ok (some _) => some (workerId, true)
        | .ok none => none
        | .error _ => some (workerId, false)
      else none
  | .answered _ (.tryReserveBorrower _ borrowerId workerId _) r =>
      if side = .borrower ∧ borrowerId = id then
        match r with
        | .ok (some _) => some (workerId, true)
        | .ok none => none
        | .error _ => some (workerId, false)
      else none
  | _ => none

/-- The reservations of a party, the last one first. -/
def reservations (side : Side) (id : String) (log : List Entry) : List (String × Bool) :=
  log.filterMap (Entry.reservation side id)

section

variable {i : Nat} {o : Op} {ch : Choice} {s : State} {side : Side} {id : String}

/-- What an operation leaves of a reservation: the name it found, or put there, or none. -/
theorem reservedBy_exec {worker : String}
    (h : (exec i o ch s).2.reservedBy side id = some worker) :
    s.reservedBy side id = some worker ∨ o.reserves = some (side, id, worker) := by
  cases side with
  | agent =>
      obtain ⟨a', ha', hby⟩ := Option.bind_eq_some_iff.mp h
      obtain ⟨a, ha, hrew⟩ := agent_of_exec ha'
      have hid : a.id = id := Collection.key_of_get ha
      have hkeep : a.reservedBy = some worker → s.reservedBy .agent id = some worker :=
        fun hby => Option.bind_eq_some_iff.mpr ⟨a, ha, hby⟩
      cases hrew with
      | same => exact .inl (hkeep hby)
      | written v hv hk hp =>
          cases o, v, hv using Op.agentWrite_cases with
          | tryReserveAgent campaignId agentId workerId ttlSeconds =>
              obtain rfl : workerId = worker := Option.some.inj hby
              obtain rfl : agentId = id := hk.symm.trans hid
              exact .inr rfl
          | releaseAgent _ _ _ _ _ =>
              cases hby
          | releaseExpiredAgentLease _ _ =>
              cases hby
          -- a move along the state machine leaves the name alone
          | transitionAgent _ _ _ _ =>
              refine .inl (hkeep ?_)
              simpa [AgentRepository.move] using hby
          | bindCall _ _ _ =>
              exact .inl (hkeep hby)
          | heartbeat _ =>
              exact .inl (hkeep hby)
  | borrower =>
      obtain ⟨b', hb', hby⟩ := Option.bind_eq_some_iff.mp h
      obtain ⟨b, hb, hrew⟩ := borrower_of_exec hb'
      have hid : b.id = id := Collection.key_of_get hb
      have hkeep : b.reservedBy = some worker → s.reservedBy .borrower id = some worker :=
        fun hby => Option.bind_eq_some_iff.mpr ⟨b, hb, hby⟩
      cases hrew with
      | same => exact .inl (hkeep hby)
      | written v hv hk hp =>
          cases o, v, hv using Op.borrowerWrite_cases with
          | tryReserveBorrower campaignId borrowerId workerId ttlSeconds =>
              obtain rfl : workerId = worker := Option.some.inj hby
              obtain rfl : borrowerId = id := hk.symm.trans hid
              exact .inr rfl
          | releaseBorrower _ _ outcome _ _ _ =>
              cases outcome <;> cases hby
          | reclaimExpiredBorrowerLease _ _ =>
              cases hby

/-- A worker that was told it has a reservation is named in the document. -/
theorem reservedBy_of_told {worker : String}
    (h : (Entry.answered i o (exec i o ch s).1).reservation side id = some (worker, true)) :
    (exec i o ch s).2.reservedBy side id = some worker := by
  generalize hr : (exec i o ch s).1 = r at h
  cases o with
  | tryReserveAgent campaignId agentId workerId ttlSeconds =>
      simp only [Entry.reservation] at h
      split at h
      · rename_i hparty
        obtain ⟨rfl, rfl⟩ := hparty
        cases r with
        | error e => simp at h
        | ok answer =>
            cases answer with
            | none => cases h
            -- the document that was answered is the one that was written
            | some a' =>
                obtain ⟨rfl, -⟩ := Prod.mk.inj (Option.some.inj h)
                obtain ⟨a, -, -, ha', hget⟩ := tryReserveAgent_some hr
                rw [tryReserveAgent_id hr] at hget
                refine Option.bind_eq_some_iff.mpr ⟨a', hget, ?_⟩
                rw [ha']
                rfl
      · cases h
  | tryReserveBorrower campaignId borrowerId workerId ttlSeconds =>
      simp only [Entry.reservation] at h
      split at h
      · rename_i hparty
        obtain ⟨rfl, rfl⟩ := hparty
        cases r with
        | error e => simp at h
        | ok answer =>
            cases answer with
            | none => cases h
            | some b' =>
                obtain ⟨rfl, -⟩ := Prod.mk.inj (Option.some.inj h)
                obtain ⟨b, -, -, hb', hget⟩ := tryReserveBorrower_some hr
                rw [tryReserveBorrower_id hr] at hget
                refine Option.bind_eq_some_iff.mpr ⟨b', hget, ?_⟩
                rw [hb']
                rfl
      · cases h
  | _ => cases h

/-- An operation that reserves nobody names nobody. -/
theorem reservedBy_of_not_reserving {worker : String}
    (hnone : (Entry.answered i o (exec i o ch s).1).reservation side id = none)
    (h : (exec i o ch s).2.reservedBy side id = some worker) :
    s.reservedBy side id = some worker := by
  rcases reservedBy_exec h with hsame | hres
  · exact hsame
  generalize hr : (exec i o ch s).1 = r at hnone
  cases o with
  | tryReserveAgent campaignId agentId workerId ttlSeconds =>
      obtain ⟨rfl, hid⟩ := Prod.mk.inj (Option.some.inj hres)
      obtain ⟨rfl, rfl⟩ := Prod.mk.inj hid
      cases r with
      | error e => simp [Entry.reservation] at hnone
      | ok answer =>
          cases answer with
          | some _ => simp [Entry.reservation] at hnone
          -- the claim was refused, so the document is as it was
          | none =>
              obtain ⟨heff, hstate⟩ := exec_ok hr
              rw [hstate] at h
              obtain ⟨a, ha, hby⟩ := Option.bind_eq_some_iff.mp h
              have hsame : s.agents.get agentId = some a :=
                (Collection.update_of_get_filter (Option.map_eq_none_iff.mp
                  (Except.ok.inj heff)) agentId).symm.trans ha
              exact Option.bind_eq_some_iff.mpr ⟨a, hsame, hby⟩
  | tryReserveBorrower campaignId borrowerId workerId ttlSeconds =>
      obtain ⟨rfl, hid⟩ := Prod.mk.inj (Option.some.inj hres)
      obtain ⟨rfl, rfl⟩ := Prod.mk.inj hid
      cases r with
      | error e => simp [Entry.reservation] at hnone
      | ok answer =>
          cases answer with
          | some _ => simp [Entry.reservation] at hnone
          | none =>
              obtain ⟨heff, hstate⟩ := exec_ok hr
              rw [hstate] at h
              obtain ⟨b, hb, hby⟩ := Option.bind_eq_some_iff.mp h
              have hsame : s.borrowers.get borrowerId = some b :=
                (Collection.update_of_get_filter (Option.map_eq_none_iff.mp
                  (Except.ok.inj heff)) borrowerId).symm.trans hb
              exact Option.bind_eq_some_iff.mpr ⟨b, hsame, hby⟩
  | _ => cases hres

/-! ## The fence -/

/-- The name in a document is that of the last reservation, if its worker was told. -/
def Fenced (s : State) : Prop :=
  ∀ side id worker earlier, reservations side id s.log = (worker, true) :: earlier →
    ∀ name, s.reservedBy side id = some name → name = worker

theorem reservations_exec :
    reservations side id (exec i o ch s).2.log
      = ((Entry.answered i o (exec i o ch s).1).reservation side id).toList
        ++ reservations side id s.log := by
  rw [exec_log, reservations, List.filterMap_cons]
  cases (Entry.answered i o (exec i o ch s).1).reservation side id <;> rfl

theorem fenced_exec (h : Fenced s) : Fenced (exec i o ch s).2 := by
  intro side id worker earlier hlog name hname
  rw [reservations_exec] at hlog
  cases hres : (Entry.answered i o (exec i o ch s).1).reservation side id with
  | none =>
      rw [hres] at hlog
      exact h side id worker earlier hlog name (reservedBy_of_not_reserving hres hname)
  | some res =>
      rw [hres] at hlog
      obtain ⟨rfl, -⟩ := List.cons.inj hlog
      exact Option.some.inj (hname.symm.trans (reservedBy_of_told hres))

/-- No log yet. -/
def NoLog (s : State) : Prop := s.log = []

theorem fenced_reachable {cfg : Settings} {w : World (dialer cfg)}
    (h : Reachable (Policy.any (dialer cfg)) NoLog w) : Fenced w.st := by
  refine h.invariant (I := Fenced) (R := fun _ => True) ?_ ?_ ?_ ?_
  · exact fun t _ => Prog.all_of_forall (fun _ => trivial) _
  · intro s hs side id worker earlier hlog
    rw [reservations, show s.log = [] from hs] at hlog
    cases hlog
  · exact fun _ _ _ _ _ _ h => fenced_exec h
  · exact fun _ _ h => h

/-- A release that is performed changes its party exactly when name and state fit. -/
theorem document_release {worker : String} {d : Agent ⊕ Borrower}
    (hrel : o.releases = some (side, id, worker)) (hperf : ch.performs o = true)
    (hd : s.document side id = some d) :
    (exec i o ch s).2.document side id = s.document side id
      ↔ ¬(s.reservedBy side id = some worker ∧ o.releasesFrom d = true) := by
  rw [exec_of_performs hperf]
  cases o with
  | releaseAgent agentId workerId target actor shielded =>
      obtain ⟨rfl, hid⟩ := Prod.mk.inj (Option.some.inj hrel)
      obtain ⟨rfl, rfl⟩ := Prod.mk.inj hid
      obtain ⟨a, ha, rfl⟩ := Option.map_eq_some_iff.mp hd
      have hby : s.reservedBy .agent agentId = a.reservedBy := by
        rw [State.reservedBy, ha]
        rfl
      -- a release counts the version up, so to change the document is to match it
      have hchanged : (AgentRepository.release ch.now (allowedSources target actor) target).apply a
          ≠ a := fun heq => Nat.succ_ne_self _ (congrArg Agent.stateVersion heq)
      have hkeep := Collection.get_write_eq_iff (w := ⟨agentId, AgentRepository.releasable workerId
        (allowedSources target actor), AgentRepository.release ch.now
        (allowedSources target actor) target⟩) ha hchanged
      refine Iff.trans ?_ (hkeep.trans ?_)
      · exact ⟨fun h => Option.map_injective Sum.inl_injective h, congrArg (Option.map Sum.inl)⟩
      · rw [hby]
        simp [AgentRepository.releasable, Op.releasesFrom]
  | releaseBorrower borrowerId workerId outcome maxAttempts backoffBaseSeconds shielded =>
      obtain ⟨rfl, hid⟩ := Prod.mk.inj (Option.some.inj hrel)
      obtain ⟨rfl, rfl⟩ := Prod.mk.inj hid
      obtain ⟨b, hb, rfl⟩ := Option.map_eq_some_iff.mp hd
      have hby : s.reservedBy .borrower borrowerId = b.reservedBy := by
        rw [State.reservedBy, hb]
        rfl
      have hchanged : (BorrowerRepository.release ch.now outcome maxAttempts
          backoffBaseSeconds).apply b ≠ b := by
        intro heq
        have hversion := congrArg Borrower.stateVersion heq
        cases outcome <;> exact Nat.succ_ne_self _ hversion
      have hkeep := Collection.get_write_eq_iff (w := ⟨borrowerId,
        BorrowerRepository.releasable workerId, BorrowerRepository.release ch.now outcome
        maxAttempts backoffBaseSeconds⟩) hb hchanged
      refine Iff.trans ?_ (hkeep.trans ?_)
      · exact ⟨fun h => Option.map_injective Sum.inr_injective h, congrArg (Option.map Sum.inr)⟩
      · rw [hby]
        simp [BorrowerRepository.releasable, Op.releasesFrom]
  | _ => cases hrel

end

/--
**Releases are fenced by name.** In every run: when a party's reservation was made last for
worker `y`, and an earlier one for worker `x`, a release in the name of `x` that is
performed now leaves the party alone exactly when the names differ, or the party is in a
state the release does not act on. Where the latest attempt on the party raised, nothing is
said: it may have taken effect or not, and the party may still be the earlier worker's.
-/
theorem release_fenced {cfg : Settings} {w : World (dialer cfg)}
    (h : Reachable (Policy.any (dialer cfg)) NoLog w) (side : Side) (id x y : String)
    (earlier : List (String × Bool)) (d : Agent ⊕ Borrower)
    (hlast : reservations side id w.st.log = (y, true) :: earlier) (_ : (x, true) ∈ earlier)
    (hd : w.st.document side id = some d) (hreserved : (w.st.reservedBy side id).isSome = true)
    (i : Nat) (o : Op) (_ : w.Awaits i o) (hrel : o.releases = some (side, id, x)) (c : Choice)
    (hperf : c.performs o = true) :
    (exec i o c w.st).2.document side id = w.st.document side id
      ↔ x ≠ y ∨ o.releasesFrom d = false := by
  obtain ⟨name, hname⟩ := Option.isSome_iff_exists.mp hreserved
  obtain rfl : name = y := fenced_reachable h side id y earlier hlast name hname
  rw [document_release hrel hperf hd, hname, not_and_or, Option.some_inj, Bool.not_eq_true]
  exact or_congr_left ne_comm

/-! ## A release that comes late -/

/--
The provider does not answer, and before the dial has released its agent the lease runs
out, recovery takes the agent back, and the same worker reserves it again.
-/
def lateRelease (worker : String) : List (Label (dialer {})) :=
  dialOnce :: List.replicate 4 (.run 0 {}) ++ [.run 0 { newId := "call" }]
    ++ List.replicate 6 (.run 0 {})
    ++ .spawn .runSweeps :: List.replicate 9 (.run 1 { now := 40000 })
    ++ .spawn (.allocate { id := "campaign" } 1 worker)
      :: List.replicate 4 (.run 2 { now := 40000 })

/-- Process 0 is about to release the agent in the name of the worker that reserved it first. -/
def AboutToRelease (worker : String) (w : World (dialer {})) (o : Op) : Prop :=
  o.releases = some (.agent, "agent", "worker")
    ∧ reservations .agent "agent" w.st.log = [(worker, true), ("worker", true)]
    ∧ (w.st.reservedBy .agent "agent").isSome = true

instance (worker : String) (w : World (dialer {})) (o : Op) :
    Decidable (AboutToRelease worker w o) :=
  inferInstanceAs (Decidable (_ ∧ _ ∧ _))

theorem oneAgent_noLog : NoLog oneAgent := oneAgent_fresh.log

/-- The agent was reserved for another pair since, and is taken away from it. -/
theorem release_not_fenced :
    ∃ w o, Reachable (Policy.any (dialer {})) NoLog w ∧ w.Awaits 0 o
      ∧ AboutToRelease "worker" w o
      ∧ (exec 0 o {} w.st).2.document .agent "agent" ≠ w.st.document .agent "agent" := by
  obtain ⟨w, hw, htest⟩ := Reachable.of_play (Policy.any (dialer {})) oneAgent_noLog
    (lateRelease "worker")
    (fun w => (w.awaited 0).any fun o => decide (AboutToRelease "worker" w o
      ∧ (exec 0 o {} w.st).2.document .agent "agent" ≠ w.st.document .agent "agent"))
    (by decide +kernel)
  obtain ⟨o, ho, hrest⟩ := Option.any_eq_true _ _ |>.mp htest
  obtain ⟨habout, hchanged⟩ := of_decide_eq_true hrest
  exact ⟨w, o, hw, awaits_of_awaited ho, habout, hchanged⟩

/-- Had the later reservation been another worker's, the agent would have stayed with it. -/
theorem release_fenced_twoWorkers :
    ∃ w o, Reachable (Policy.any (dialer {})) NoLog w ∧ AboutToRelease "other" w o
      ∧ (exec 0 o {} w.st).2.document .agent "agent" = w.st.document .agent "agent" := by
  obtain ⟨w, hw, htest⟩ := Reachable.of_play (Policy.any (dialer {})) oneAgent_noLog
    (lateRelease "other")
    (fun w => (w.awaited 0).any fun o => decide (AboutToRelease "other" w o
      ∧ (w.st.document .agent "agent").isSome = true)) (by decide +kernel)
  obtain ⟨o, ho, hrest⟩ := Option.any_eq_true _ _ |>.mp htest
  obtain ⟨⟨hrel, hlast, hreserved⟩, hsome⟩ := of_decide_eq_true hrest
  obtain ⟨d, hd⟩ := Option.isSome_iff_exists.mp hsome
  refine ⟨w, o, hw, ⟨hrel, hlast, hreserved⟩, ?_⟩
  exact (release_fenced hw .agent "agent" "worker" "other" _ d hlast (by decide) hd hreserved 0 o
    (awaits_of_awaited ho) hrel {} rfl).mpr (.inl (by decide))

end SmartDialer
