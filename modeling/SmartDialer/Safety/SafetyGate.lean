import SmartDialer.Safety.SafetyController

/-!
# The safety gate

What `SafetyController.evaluate` answers, for every way its reads can go: nothing
is approved when one of them raises, and otherwise the minimum of the request and
the eight limits. The number approved, the constraint that is marked as binding,
the fallback reason and the verdict are computed separately from the same inputs;
`Gate` says how they fit together.
-/

namespace SmartDialer

open Conc

namespace SafetyController

/-- Fewer agents are available than last time, by more than the threshold allows. -/
def Dropped (cfg : Settings) (r : Readings) : Prop :=
  ∃ previous : Nat, r.previousAvailable = some previous
    ∧ r.reading.availableAgents < previous
    ∧ cfg.availabilityDropThreshold
        < ((previous : ℚ) - r.reading.availableAgents) / previous

/-- The snapshot the request is based on is too old. -/
def SnapshotTooOld (cfg : Settings) (r : Readings) : Prop :=
  cfg.maxSnapshotAgeSeconds * 1000 < r.snapshotAgeMs

/--
How a decision relates to the readings it was made from.

The fields bound what is approved, then say which constraint is reported as the
one that decided, and then which verdict goes with it.
-/
structure Gate (cfg : Settings) (campaign : Campaign) (request : PacingRequest) (r : Readings)
    (d : SafetyDecision) : Prop where
  /-- There are eight constraints, of different names. -/
  names : (d.constraints.map (·.name)).Nodup ∧ d.constraints.length = 8
  /-- What is approved is the minimum of the request and the limits. -/
  minimum : (request.requested :: d.constraints.map (·.limit)).min? = some d.approved
  nonneg : 0 ≤ d.approved
  le_requested : d.approved ≤ request.requested
  le_capacity :
    d.approved ≤ max 0 ((r.reading.availableAgents : Int) - r.reading.reservedAgents)
  le_concurrency :
    d.approved ≤ max 0 ((campaign.maxConcurrentCalls : Int) - r.reading.activeCalls)
  le_ringing :
    d.approved
      ≤ max 0 (⌊cfg.maxRingingRatio * r.reading.availableAgents⌋ - r.reading.ringingCalls)
  /-- One agent per call, whenever there is a reason to be careful. -/
  le_available :
    request.mode = .progressive ∨ r.reading.providerStatus = .degraded ∨ Dropped cfg r
        ∨ cfg.highFailureRateThreshold < r.reading.callFailureRate →
      d.approved ≤ r.reading.availableAgents
  /-- Nothing at all, when the state cannot be trusted. -/
  zero :
    r.reading.providerStatus = .unhealthy ∨ SnapshotTooOld cfg r ∨ 0 < r.reading.expiredLeases →
      d.approved = 0
  /-- A reduced request has exactly one binding constraint, the first that explains it. -/
  binding :
    d.approved < request.requested →
      ∃ pre c post, d.constraints = pre ++ c :: post ∧ c.binding = true ∧ c.limit = d.approved
        ∧ d.bindingConstraint = some c.name
        ∧ (∀ x ∈ pre, x.binding = false ∧ x.limit ≠ d.approved)
        ∧ ∀ x ∈ post, x.binding = false
  /-- A request approved in full has none. -/
  no_binding :
    d.approved = request.requested →
      d.bindingConstraint = none ∧ ∀ x ∈ d.constraints, x.binding = false
  /-- There is a fallback reason exactly when one of the five signals is up. -/
  fallback :
    d.fallbackReason.isSome = true
      ↔ SnapshotTooOld cfg r ∨ 0 < r.reading.expiredLeases ∨ r.reading.providerStatus ≠ .healthy
        ∨ cfg.availabilityDropThreshold < availabilityDropRatio cfg r
        ∨ ringingCeiling cfg r.reading < r.reading.ringingCalls
        ∨ cfg.highFailureRateThreshold < r.reading.callFailureRate
  approved_iff :
    d.verdict = .approved
      ↔ request.requested = 0
        ∨ 0 < d.approved ∧ d.approved = request.requested ∧ d.fallbackReason = none
  fallback_iff :
    d.verdict = .fallbackProgressive ↔ 0 < d.approved ∧ d.fallbackReason.isSome = true
  rejected_iff : d.verdict = .rejected ↔ d.approved = 0 ∧ request.requested ≠ 0
  reduced_iff :
    d.verdict = .reduced
      ↔ 0 < d.approved ∧ d.approved < request.requested ∧ d.fallbackReason = none

variable {cfg : Settings} {campaign : Campaign} {request : PacingRequest} {r : Readings}
  {pacingDecisionId : Option String}

/-! ## The limits -/

theorem truncate_of_nonneg {x : ℚ} (h : 0 ≤ x) : truncate x = ⌊x⌋ := by
  rw [truncate, if_pos h]

theorem ringingCeiling_eq (hratio : 0 ≤ cfg.maxRingingRatio) (reading : CapacityReading) :
    ringingCeiling cfg reading = ⌊cfg.maxRingingRatio * reading.availableAgents⌋ :=
  truncate_of_nonneg (mul_nonneg hratio (Nat.cast_nonneg _))

theorem limits_nonneg (hreq : 0 ≤ request.requested) {x : SafetyConstraintResult}
    (hx : x ∈ constraintsOf cfg campaign request r) : 0 ≤ x.limit := by
  simp only [constraintsOf, buildConstraints, List.mem_cons, List.not_mem_nil, or_false] at hx
  rcases hx with rfl | rfl | rfl | rfl | rfl | rfl | rfl | rfl
  · exact le_max_left _ _
  · exact le_max_left _ _
  · exact le_max_left _ _
  · cases r.reading.providerStatus <;> simp [hreq]
  · dsimp only; split <;> omega
  · dsimp only; split <;> omega
  · dsimp only; split <;> omega
  · dsimp only; split <;> omega

/-- The clamp at zero never does anything: no limit is negative. -/
theorem approvedOf_min (hreq : 0 ≤ request.requested) :
    (request.requested :: (constraintsOf cfg campaign request r).map (·.limit)).min?
      = some (approvedOf request.requested (constraintsOf cfg campaign request r)) := by
  rw [List.min?_cons', approvedOf, max_eq_right]
  have hmin : (request.requested :: (constraintsOf cfg campaign request r).map (·.limit)).min?
      = some _ := List.min?_cons'
  have hmem := (List.min?_eq_some_iff.mp hmin).1
  rcases List.mem_cons.mp hmem with heq | hin
  · omega
  · obtain ⟨x, hx, hlim⟩ := List.mem_map.mp hin
    exact hlim ▸ limits_nonneg hreq hx

theorem approvedOf_le_limit (hreq : 0 ≤ request.requested) {x : SafetyConstraintResult}
    (hx : x ∈ constraintsOf cfg campaign request r) :
    approvedOf request.requested (constraintsOf cfg campaign request r) ≤ x.limit :=
  (List.min?_eq_some_iff.mp (approvedOf_min hreq)).2 _
    (List.mem_cons_of_mem _ (List.mem_map_of_mem hx))

/-- What is approved in part is the limit of some constraint. -/
theorem exists_limit_eq (hreq : 0 ≤ request.requested)
    (hlt : approvedOf request.requested (constraintsOf cfg campaign request r)
      < request.requested) :
    ∃ x ∈ constraintsOf cfg campaign request r,
      x.limit = approvedOf request.requested (constraintsOf cfg campaign request r) := by
  have hmem : approvedOf request.requested (constraintsOf cfg campaign request r)
      ∈ request.requested :: (constraintsOf cfg campaign request r).map (·.limit) :=
    (List.min?_eq_some_iff.mp (approvedOf_min hreq)).1
  rcases List.mem_cons.mp hmem with heq | hin
  · omega
  · exact List.mem_map.mp hin

/-! ## The binding constraint -/

theorem markFirst_map {β : Type} (f : SafetyConstraintResult → β)
    (hf : ∀ x b, f { x with binding := b } = f x) (a : Int) (m : Bool)
    (xs : List SafetyConstraintResult) : (markFirst a m xs).map f = xs.map f := by
  induction xs generalizing m with
  | nil => rfl
  | cons x xs ih => simp only [markFirst, List.map_cons, hf, ih]

theorem markBinding_map {β : Type} (f : SafetyConstraintResult → β)
    (hf : ∀ x b, f { x with binding := b } = f x) (xs : List SafetyConstraintResult)
    (a q : Int) : (markBinding xs a q).map f = xs.map f := by
  rw [markBinding]
  split
  · rfl
  · exact markFirst_map f hf a false xs

/-- Once one constraint is marked, no other is. -/
theorem markFirst_marked (a : Int) (xs : List SafetyConstraintResult) :
    ∀ x ∈ markFirst a true xs, x.binding = false := by
  induction xs with
  | nil => simp [markFirst]
  | cons y ys ih =>
      intro x hx
      rcases List.mem_cons.mp hx with rfl | hx
      · rfl
      · exact ih x hx

theorem markFirst_split {a : Int} {xs : List SafetyConstraintResult}
    (h : ∃ x ∈ xs, x.limit = a) :
    ∃ pre c post, markFirst a false xs = pre ++ c :: post ∧ c.binding = true ∧ c.limit = a
      ∧ (∀ x ∈ pre, x.binding = false ∧ x.limit ≠ a) ∧ ∀ x ∈ post, x.binding = false := by
  induction xs with
  | nil => simp at h
  | cons y ys ih =>
      by_cases hy : y.limit = a
      · refine ⟨[], { y with binding := true }, markFirst a true ys, ?_, rfl, hy, ?_,
          markFirst_marked a ys⟩
        · simp only [markFirst, hy, Bool.not_false, BEq.rfl, Bool.and_self, Bool.or_true,
            List.nil_append]
        · simp
      · have htail : ∃ x ∈ ys, x.limit = a := by
          obtain ⟨x, hx, hxa⟩ := h
          rcases List.mem_cons.mp hx with rfl | hx
          · exact absurd hxa hy
          · exact ⟨x, hx, hxa⟩
        obtain ⟨pre, c, post, heq, hb, hl, hpre, hpost⟩ := ih htail
        have hne : (y.limit == a) = false := beq_false_of_ne hy
        refine ⟨{ y with binding := false } :: pre, c, post, ?_, hb, hl, ?_, hpost⟩
        · simp only [markFirst, hne, Bool.and_false, Bool.or_self, heq, List.cons_append]
        · intro x hx
          rcases List.mem_cons.mp hx with rfl | hx
          · exact ⟨rfl, hy⟩
          · exact hpre x hx

theorem find_binding_split {pre post : List SafetyConstraintResult} {c : SafetyConstraintResult}
    (hc : c.binding = true) (hpre : ∀ x ∈ pre, x.binding = false) :
    (pre ++ c :: post).find? (·.binding) = some c := by
  rw [List.find?_append, List.find?_eq_none.mpr (by simpa using hpre), Option.none_or,
    List.find?_cons_of_pos hc]

theorem constraintsOf_unmarked {x : SafetyConstraintResult}
    (hx : x ∈ constraintsOf cfg campaign request r) : x.binding = false := by
  simp only [constraintsOf, buildConstraints, List.mem_cons, List.not_mem_nil, or_false] at hx
  rcases hx with rfl | rfl | rfl | rfl | rfl | rfl | rfl | rfl <;> rfl

/-! ## Drops and fallbacks -/

theorem dropRatio_of_dropped (h : Dropped cfg r) :
    cfg.availabilityDropThreshold < availabilityDropRatio cfg r := by
  obtain ⟨previous, hp, hlt, hthr⟩ := h
  have hcond : ¬ (previous = 0 ∨ previous ≤ r.reading.availableAgents) := by omega
  simp only [availabilityDropRatio, recordAndDetect, hp]
  rw [if_neg hcond, if_neg (not_le.mpr hthr), Option.getD_some]
  exact hthr

theorem snapshotIsStale_iff :
    snapshotIsStale cfg r = true ↔ SnapshotTooOld cfg r ∨ 0 < r.reading.expiredLeases := by
  simp [snapshotIsStale, SnapshotTooOld]

/-- Five signals, and a reason for each. -/
theorem shouldFallbackToProgressive_isSome (x : FallbackInputs) :
    (shouldFallbackToProgressive x).isSome = true
      ↔ x.snapshotIsStale = true ∨ x.providerStatus ≠ .healthy
        ∨ x.availabilityDropThreshold < x.availabilityDropRatio
        ∨ x.ringingCeiling < x.ringingCalls ∨ x.failureRateThreshold < x.callFailureRate := by
  rw [shouldFallbackToProgressive]
  split
  · simp [*]
  split
  · simp [*]
  split
  · simp [*]
  split
  · simp [*]
  split <;> simp_all

theorem fallbackReasonOf_isSome :
    (fallbackReasonOf cfg r).isSome = true
      ↔ SnapshotTooOld cfg r ∨ 0 < r.reading.expiredLeases ∨ r.reading.providerStatus ≠ .healthy
        ∨ cfg.availabilityDropThreshold < availabilityDropRatio cfg r
        ∨ ringingCeiling cfg r.reading < r.reading.ringingCalls
        ∨ cfg.highFailureRateThreshold < r.reading.callFailureRate := by
  rw [fallbackReasonOf, shouldFallbackToProgressive_isSome, snapshotIsStale_iff, or_assoc]

/-! ## The verdict -/

theorem verdict_approved {q a : Int} {reason : Option String} (ha : 0 ≤ a) (hq : a ≤ q) :
    verdict q a reason = .approved ↔ q = 0 ∨ 0 < a ∧ a = q ∧ reason = none := by
  cases reason with
  | none => grind [verdict]
  | some text => grind [verdict]

theorem verdict_fallback {q a : Int} {reason : Option String} (hq : a ≤ q) :
    verdict q a reason = .fallbackProgressive ↔ 0 < a ∧ reason.isSome = true := by
  cases reason with
  | none => grind [verdict]
  | some text => grind [verdict]

theorem verdict_rejected {q a : Int} {reason : Option String} :
    verdict q a reason = .rejected ↔ a = 0 ∧ q ≠ 0 := by
  cases reason with
  | none => grind [verdict]
  | some text => grind [verdict]

theorem verdict_reduced {q a : Int} {reason : Option String} (ha : 0 ≤ a) :
    verdict q a reason = .reduced ↔ 0 < a ∧ a < q ∧ reason = none := by
  cases reason with
  | none => grind [verdict]
  | some text => grind [verdict]

/-! ## The gate -/

section

variable (hreq : 0 ≤ request.requested)

/-- What a decision approves, and the constraints it reports. -/
theorem decisionOf_limits (pacingDecisionId : Option String) :
    (decisionOf cfg campaign request pacingDecisionId r).constraints.map (·.limit)
      = (constraintsOf cfg campaign request r).map (·.limit) :=
  markBinding_map _ (fun _ _ => rfl) _ _ _

include hreq in
theorem approved_le_limit (pacingDecisionId : Option String) {x : SafetyConstraintResult}
    (hx : x ∈ constraintsOf cfg campaign request r) :
    (decisionOf cfg campaign request pacingDecisionId r).approved ≤ x.limit :=
  approvedOf_le_limit hreq hx

include hreq in
theorem approved_le_requested (pacingDecisionId : Option String) :
    (decisionOf cfg campaign request pacingDecisionId r).approved ≤ request.requested :=
  (List.min?_eq_some_iff.mp (approvedOf_min hreq)).2 _ List.mem_cons_self

theorem approved_nonneg (pacingDecisionId : Option String) :
    0 ≤ (decisionOf cfg campaign request pacingDecisionId r).approved :=
  le_max_left _ _

include hreq in
/-- Every reason to be careful caps the approval at one call per available agent. -/
theorem approved_le_available (pacingDecisionId : Option String)
    (h : request.mode = .progressive ∨ r.reading.providerStatus = .degraded ∨ Dropped cfg r
      ∨ cfg.highFailureRateThreshold < r.reading.callFailureRate) :
    (decisionOf cfg campaign request pacingDecisionId r).approved
      ≤ r.reading.availableAgents := by
  have hcap : ∃ x ∈ constraintsOf cfg campaign request r,
      x.limit = r.reading.availableAgents := by
    simp only [constraintsOf, buildConstraints, List.mem_cons, List.not_mem_nil, or_false,
      exists_eq_or_imp, exists_eq_left]
    rcases h with h | h | h | h
    · simp [h]
    · simp [h]
    · simp [dropRatio_of_dropped h]
    · simp [h]
  obtain ⟨x, hx, hlim⟩ := hcap
  exact hlim ▸ approved_le_limit hreq pacingDecisionId hx

include hreq in
/-- Every reason to distrust the state closes the gate. -/
theorem approved_eq_zero (pacingDecisionId : Option String)
    (h : r.reading.providerStatus = .unhealthy ∨ SnapshotTooOld cfg r
      ∨ 0 < r.reading.expiredLeases) :
    (decisionOf cfg campaign request pacingDecisionId r).approved = 0 := by
  have hcap : ∃ x ∈ constraintsOf cfg campaign request r, x.limit = 0 := by
    simp only [constraintsOf, buildConstraints, List.mem_cons, List.not_mem_nil, or_false,
      exists_eq_or_imp, exists_eq_left]
    rcases h with h | h
    · simp [h]
    · simp [snapshotIsStale_iff.mpr h]
  obtain ⟨x, hx, hlim⟩ := hcap
  have := approved_le_limit hreq pacingDecisionId hx
  have hpos : 0 ≤ (decisionOf cfg campaign request pacingDecisionId r).approved :=
    approved_nonneg pacingDecisionId
  omega

include hreq in
/-- A reduced request has exactly one binding constraint. -/
theorem decisionOf_binding (pacingDecisionId : Option String)
    (hlt : (decisionOf cfg campaign request pacingDecisionId r).approved < request.requested) :
    ∃ pre c post, (decisionOf cfg campaign request pacingDecisionId r).constraints
        = pre ++ c :: post ∧ c.binding = true
      ∧ c.limit = (decisionOf cfg campaign request pacingDecisionId r).approved
      ∧ (decisionOf cfg campaign request pacingDecisionId r).bindingConstraint = some c.name
      ∧ (∀ x ∈ pre, x.binding = false
        ∧ x.limit ≠ (decisionOf cfg campaign request pacingDecisionId r).approved)
      ∧ ∀ x ∈ post, x.binding = false := by
  have hlimit : ∃ x ∈ constraintsOf cfg campaign request r,
      x.limit = (decisionOf cfg campaign request pacingDecisionId r).approved :=
    exists_limit_eq hreq hlt
  obtain ⟨pre, c, post, heq, hb, hl, hpre, hpost⟩ := markFirst_split hlimit
  have hcs : (decisionOf cfg campaign request pacingDecisionId r).constraints
      = pre ++ c :: post := by
    rw [← heq]
    exact if_neg (not_le.mpr hlt)
  refine ⟨pre, c, post, hcs, hb, hl, ?_, hpre, hpost⟩
  have hfind : (pre ++ c :: post).find? (·.binding) = some c :=
    find_binding_split hb fun x hx => (hpre x hx).1
  change ((decisionOf cfg campaign request pacingDecisionId r).constraints.find? _).map _ = _
  rw [hcs, hfind, Option.map_some]

/-- A request approved in full has no binding constraint. -/
theorem decisionOf_unmarked (pacingDecisionId : Option String)
    (heq : (decisionOf cfg campaign request pacingDecisionId r).approved = request.requested) :
    (decisionOf cfg campaign request pacingDecisionId r).bindingConstraint = none
      ∧ ∀ x ∈ (decisionOf cfg campaign request pacingDecisionId r).constraints,
        x.binding = false := by
  have hcs : (decisionOf cfg campaign request pacingDecisionId r).constraints
      = constraintsOf cfg campaign request r := if_pos heq.ge
  have hall : ∀ x ∈ (decisionOf cfg campaign request pacingDecisionId r).constraints,
      x.binding = false := by
    rw [hcs]
    exact fun x hx => constraintsOf_unmarked hx
  refine ⟨?_, hall⟩
  change ((decisionOf cfg campaign request pacingDecisionId r).constraints.find? _).map _ = _
  rw [List.find?_eq_none.mpr (by simpa using hall), Option.map_none]

include hreq in
/-- The decision made from readings passes the gate. -/
theorem gate_decisionOf (hratio : 0 ≤ cfg.maxRingingRatio) (pacingDecisionId : Option String) :
    Gate cfg campaign request r (decisionOf cfg campaign request pacingDecisionId r) := by
  have hpos : 0 ≤ (decisionOf cfg campaign request pacingDecisionId r).approved :=
    approved_nonneg pacingDecisionId
  have hreqd : (decisionOf cfg campaign request pacingDecisionId r).approved
      ≤ request.requested := approved_le_requested hreq pacingDecisionId
  have hnames : (decisionOf cfg campaign request pacingDecisionId r).constraints.map (·.name)
      = (constraintsOf cfg campaign request r).map (·.name) :=
    markBinding_map _ (fun _ _ => rfl) _ _ _
  -- one bound for each constraint, in the order of the source
  have hmem : ∀ x ∈ constraintsOf cfg campaign request r,
      (decisionOf cfg campaign request pacingDecisionId r).approved ≤ x.limit :=
    fun _ hx => approved_le_limit hreq pacingDecisionId hx
  simp only [constraintsOf, buildConstraints, List.forall_mem_cons] at hmem
  exact
    { names := by
        rw [hnames, ← List.length_map (f := (·.name)), hnames]
        exact ⟨by simp [constraintsOf, buildConstraints], rfl⟩
      minimum := by
        rw [decisionOf_limits]
        exact approvedOf_min hreq
      nonneg := hpos
      le_requested := hreqd
      le_capacity := hmem.1
      le_concurrency := hmem.2.1
      le_ringing := by
        rw [← ringingCeiling_eq hratio]
        exact hmem.2.2.1
      le_available := approved_le_available hreq pacingDecisionId
      zero := approved_eq_zero hreq pacingDecisionId
      binding := decisionOf_binding hreq pacingDecisionId
      no_binding := decisionOf_unmarked pacingDecisionId
      fallback := fallbackReasonOf_isSome
      approved_iff := verdict_approved hpos hreqd
      fallback_iff := verdict_fallback hreqd
      rejected_iff := verdict_rejected
      reduced_iff := verdict_reduced hpos }

end

/-! ## The evaluation -/

/-- A cancellation came out of a run, and it came from an operation of the run. -/
def Cancelled {α σ : Type} (h : (o : Op) → σ → Except Exn (Ans o) × σ)
    (result : Except Exn α) : Prop :=
  result = .error .cancelledError ∧ ∃ o s, (h o s).1 = .error .cancelledError

/-- Persisting a decision fails for no other reason than a cancellation. -/
theorem eval_persistDecision {σ : Type} (h : (o : Op) → σ → Except Exn (Ans o) × σ)
    (d : SafetyDecision) (s : σ) :
    ((persistDecision d).eval h s).1 = .ok ()
      ∨ Cancelled h ((persistDecision d).eval h s).1 := by
  rw [persistDecision, Prog.eval_tryCatch, Prog.eval_perform]
  split
  · exact .inl rfl
  · rename_i e s' heq
    cases e with
    | cancelledError => exact .inr ⟨rfl, _, s, by rw [heq]⟩
    | _ => exact .inl rfl

theorem forwards_readings (cfg : Settings) (campaign : Campaign) (request : PacingRequest) :
    (readings cfg campaign request).Forwards := by
  have hread : (readCapacity cfg campaign).Forwards := by
    refine Prog.forwards_bind (Prog.forwards_perform _) fun _ => ?_
    refine Prog.forwards_bind (Prog.forwards_perform _) fun _ => ?_
    refine Prog.forwards_bind (Prog.forwards_perform _) fun _ => ?_
    refine Prog.forwards_bind (Prog.forwards_perform _) fun _ => ?_
    refine Prog.forwards_bind (Prog.forwards_perform _) fun _ => ?_
    exact Prog.forwards_bind (Prog.forwards_perform _) fun _ => Prog.forwards_ret _
  have hage : (snapshotAgeMs request).Forwards :=
    Prog.forwards_bind (Prog.forwards_perform _) fun _ => Prog.forwards_ret _
  refine Prog.forwards_bind hread fun _ => Prog.forwards_bind hage fun _ => ?_
  exact Prog.forwards_bind (Prog.forwards_perform _) fun _ => Prog.forwards_ret _

/-- What `evaluate` decides, by what its reads come to. -/
def evaluated (cfg : Settings) (campaign : Campaign) (request : PacingRequest)
    (pacingDecisionId : Option String) : Except Exn Readings → SafetyDecision
  | .ok r => decisionOf cfg campaign request pacingDecisionId r
  | .error _ => evaluationError campaign request pacingDecisionId

theorem eval_decideOrReject (cfg : Settings) (campaign : Campaign) (request : PacingRequest)
    (pacingDecisionId : Option String) {σ : Type}
    (h : (o : Op) → σ → Except Exn (Ans o) × σ) (s : σ) :
    ((decideOrReject cfg campaign request pacingDecisionId).eval h s).1
        = .ok (evaluated cfg campaign request pacingDecisionId
          ((readings cfg campaign request).eval h s).1)
      ∨ Cancelled h ((decideOrReject cfg campaign request pacingDecisionId).eval h s).1 := by
  have hforward := forwards_readings cfg campaign request σ h s
  simp only [decideOrReject, Prog.bind_eq, Prog.pure_eq, Prog.eval_tryCatch, Prog.eval_bind]
  revert hforward
  generalize (readings cfg campaign request).eval h s = x
  obtain ⟨result, s'⟩ := x
  intro hforward
  cases result with
  | ok r => exact .inl rfl
  | error e =>
      cases e with
      | cancelledError => exact .inr ⟨rfl, hforward _ rfl⟩
      | _ => exact .inl rfl

/-- An evaluation answers what its reads come to, unless it is cancelled. -/
theorem replay_evaluate (f : Nat → (o : Op) → Except Exn (Ans o)) (cfg : Settings)
    (campaign : Campaign) (request : PacingRequest) (pacingDecisionId : Option String)
    (persist : Bool) :
    (evaluate cfg campaign request pacingDecisionId persist).replay f
        = .ok (evaluated cfg campaign request pacingDecisionId
          ((readings cfg campaign request).replay f))
      ∨ Cancelled (fun o n => (f n o, n + 1))
        ((evaluate cfg campaign request pacingDecisionId persist).replay f) := by
  have hdec := eval_decideOrReject cfg campaign request pacingDecisionId
    (fun o n => (f n o, n + 1)) 0
  simp only [Prog.replay, evaluate, Prog.bind_eq, Prog.pure_eq, Prog.eval_bind]
  revert hdec
  generalize (decideOrReject cfg campaign request pacingDecisionId).eval _ 0 = x
  obtain ⟨result, n⟩ := x
  -- the reads are answered, or fail, or are cancelled; only then is anything persisted
  rintro (rfl | ⟨rfl, hcancel⟩)
  · cases persist with
    | false => exact .inl rfl
    | true =>
        simp only [if_true, Prog.eval_bind]
        have hpersist := eval_persistDecision (fun o n => (f n o, n + 1))
          (evaluated cfg campaign request pacingDecisionId
            ((readings cfg campaign request).replay f)) n
        revert hpersist
        rw [Prog.replay]
        generalize (persistDecision _).eval _ n = y
        obtain ⟨done, n'⟩ := y
        rintro (rfl | ⟨rfl, hcancel⟩)
        · exact .inl rfl
        · exact .inr ⟨rfl, hcancel⟩
  · exact .inr ⟨rfl, hcancel⟩

/--
**The safety gate.** However its reads are answered, an evaluation returns a decision,
unless it is cancelled: nothing approved, and a rejection, when a read raised, and
otherwise a decision that passes the gate.
-/
theorem evaluate_gate (f : Nat → (o : Op) → Except Exn (Ans o)) (cfg : Settings)
    (campaign : Campaign) (request : PacingRequest) (pacingDecisionId : Option String)
    (persist : Bool) (hratio : 0 ≤ cfg.maxRingingRatio) (hreq : 0 ≤ request.requested) :
    (∃ d, (evaluate cfg campaign request pacingDecisionId persist).replay f = .ok d
      ∧ match (readings cfg campaign request).replay f with
        | .error _ => d.approved = 0 ∧ d.verdict = .rejected
        | .ok r => Gate cfg campaign request r d)
      ∨ (evaluate cfg campaign request pacingDecisionId persist).replay f
          = .error .cancelledError ∧ ∃ n o, f n o = .error .cancelledError := by
  rcases replay_evaluate f cfg campaign request pacingDecisionId persist with h | ⟨h, o, n, hn⟩
  · refine .inl ⟨_, h, ?_⟩
    cases (readings cfg campaign request).replay f with
    | error e => exact ⟨rfl, rfl⟩
    | ok r => exact gate_decisionOf hreq hratio pacingDecisionId
  · exact .inr ⟨h, n, o, hn⟩

/-- What a database with nothing in it answers. -/
def emptyAnswers (o : Op) : Except Exn (Ans o) :=
  (effect o {} ⟨.empty, .empty, .empty, .empty, []⟩).1

theorem evaluate_gate_empty :
    ∃ d, (evaluate {} { id := "campaign" } ⟨5, .predictive, 0⟩ none true).replay
        (fun _ => emptyAnswers) = .ok d ∧ d.approved ≤ 5 := by
  rcases evaluate_gate (fun _ => emptyAnswers) {} { id := "campaign" } ⟨5, .predictive, 0⟩ none
    true (by decide) (by decide) with ⟨d, hd, hgate⟩ | ⟨-, n, o, hcancel⟩
  · refine ⟨d, hd, ?_⟩
    revert hgate
    cases (readings {} { id := "campaign" } ⟨5, .predictive, 0⟩).replay fun _ => emptyAnswers with
    | error e => exact fun h => h.1.trans_le (by decide)
    | ok r => exact fun h => h.le_requested
  · cases o <;> cases hcancel

end SafetyController

end SmartDialer
