import QuantumFoundation.Physical.CausalOrder

/-!
# What a submission leaves behind

The hub notes the id of a proposal before it parses the zones, and does not take it back when
one of them does not parse.  Such a proposal cannot be corrected under its id
(`submit_leavesNoTrace_iff`).

A zone is parsed differently from a ready input and from a dictionary of rates: the input goes
to the executor with the id it carries, whereas the rates are filed under the key of the zone.
-/

namespace QuantumFoundation

variable {F : Type*} [LT F] [LE F] [OfScientific F]

/-! ## What parses -/

/-- The data parses as the input of a zone, whatever its roughness rate is. -/
def ZoneData.WellFormed (zoneId : String) : ZoneData F → Prop
  | input _ => True
  | rates corrosionRate coatingDegradationRate barnacleGrowthRate _ dt =>
    zoneId ≠ "" ∧ ¬corrosionRate.getD 0.0 < 0.0 ∧ ¬coatingDegradationRate.getD 0.0 < 0.0 ∧
      ¬barnacleGrowthRate.getD 0.0 < 0.0 ∧ ¬dt.getD 1.0 ≤ 0.0
  | illTyped _ | other => False

/-- `to_dict`, as data of a proposal.  The hub does not read the entry `zone_id`, which is left
out. -/
def TransitionInput.toDict (inp : TransitionInput F) : ZoneData F :=
  .rates (some inp.corrosionRate) (some inp.coatingDegradationRate) (some inp.barnacleGrowthRate)
    (some (.ok inp.roughnessRate)) (some inp.dt)

/-- Every zone of the proposal parses. -/
def PhysicalProposal.WellFormed (proposal : PhysicalProposal F) : Prop :=
  ∀ p ∈ proposal.zoneTransitions.entries, p.2.WellFormed p.1

namespace PhysicalExecutionHub

section Parse

variable [DecidableLT F] [DecidableLE F] {E : FloatEnv F}

/-- Something is made of what is returned, if anything is. -/
lemma exists_map_ok_iff {ε α β : Type*} {r : Except ε α} (f : α → β) :
    (∃ b, r.map f = .ok b) ↔ ∃ a, r = .ok a := by
  cases r <;> simp [Except.map]

lemma parseZone_ok_iff {zoneId : String} {data : ZoneData F} :
    (∃ inp, parseZone E zoneId data = .ok inp) ↔ data.WellFormed zoneId := by
  cases data with
  | input inp => exact iff_of_true ⟨inp, rfl⟩ trivial
  | rates corrosionRate coatingDegradationRate barnacleGrowthRate roughnessRate dt =>
    rw [parseZone]
    split
    · exact (exists_map_ok_iff _).trans TransitionInput.new_ok_iff
    · exact (exists_map_ok_iff _).trans TransitionInput.new_ok_iff
  | illTyped exc => exact iff_of_false (fun ⟨inp, h⟩ => nomatch h) id
  | other => exact iff_of_false (fun ⟨inp, h⟩ => nomatch h) id

/-- The loop goes through exactly if every zone parses. -/
lemma parseLoop_ok_iff {l : List (String × ZoneData F)} {d : Dict String (ZoneInput F)} :
    (∃ d', parseLoop E l d = .ok d') ↔ ∀ p ∈ l, p.2.WellFormed p.1 := by
  induction l generalizing d with
  | nil => exact iff_of_true ⟨d, rfl⟩ fun p hp => absurd hp List.not_mem_nil
  | cons p l ih =>
    rw [parseLoop, List.forall_mem_cons, ← parseZone_ok_iff (E := E)]
    cases hp : parseZone E p.1 p.2 with
    | error exc =>
      refine iff_of_false (fun ⟨d', h⟩ => nomatch h) ?_
      rintro ⟨⟨inp, h⟩, -⟩
      cases h
    | ok inp => exact ih.trans (and_iff_right ⟨inp, rfl⟩).symm

/-- Every input that is filed was filed before, or parsed from the data of its zone. -/
lemma parseLoop_get? {l : List (String × ZoneData F)} {d d' : Dict String (ZoneInput F)}
    (h : parseLoop E l d = .ok d') {zoneId : String} {inp : ZoneInput F}
    (hget : d'.get? zoneId = some inp) : d.get? zoneId = some inp ∨
      ∃ data, (zoneId, data) ∈ l ∧ parseZone E zoneId data = .ok inp := by
  induction l generalizing d with
  | nil =>
    obtain rfl := Except.ok.inj h
    exact Or.inl hget
  | cons p l ih =>
    rw [parseLoop] at h
    cases hp : parseZone E p.1 p.2 with
    | error exc => simp only [hp, reduceCtorEq] at h
    | ok parsed =>
      simp only [hp] at h
      rcases ih h with hset | ⟨data, hmem, hdata⟩
      · rw [Dict.get?_set] at hset
        split at hset
        · next hid =>
          obtain rfl := Option.some.inj hset
          exact Or.inr ⟨p.2, by rw [hid]; exact List.mem_cons_self, hid ▸ hp⟩
        · exact Or.inl hset
      · exact Or.inr ⟨data, List.mem_cons_of_mem p hmem, hdata⟩

/-- Data that stands for the inputs of its zones parses as these inputs. -/
lemma parseLoop_mapValues {α : Type*} {inputs : Dict String α} {f : String → α → ZoneData F}
    {g : String → α → ZoneInput F}
    (h : ∀ p ∈ inputs.entries, parseZone E p.1 (f p.1 p.2) = .ok (g p.1 p.2)) :
    parseLoop E (inputs.mapValues f).entries .empty = .ok (inputs.mapValues g) := by
  have hloop : ∀ (l : List (String × α)) (d : Dict String (ZoneInput F)),
      (∀ p ∈ l, parseZone E p.1 (f p.1 p.2) = .ok (g p.1 p.2)) →
      parseLoop E (l.map fun p => (p.1, f p.1 p.2)) d
        = .ok ((l.map fun p => (p.1, g p.1 p.2)).foldl (fun d p => d.set p.1 p.2) d) := by
    intro l
    induction l with
    | nil => exact fun d _ => rfl
    | cons p l ih =>
      intro d hl
      rw [List.map_cons, parseLoop, hl p List.mem_cons_self]
      exact ih _ fun q hq => hl q (List.mem_cons_of_mem p hq)
  refine (hloop inputs.entries .empty h).trans ?_
  exact congrArg Except.ok (Dict.ofList_entries (inputs.mapValues g))

end Parse

/-! ## The ids in the log -/

/-- What every operation keeps of the ids: the log is numbered, and the ids of its proposals
are distinct and noted. -/
structure IdsInv (hub : PhysicalExecutionHub F) : Prop extends LogInv hub where
  nodup : (hub.eventLog.map (·.proposalId)).Nodup
  seen : ∀ e ∈ hub.eventLog, e.proposalId ∈ hub.seenProposals

lemma IdsInv.new (hr hd : Bool) : IdsInv (new hr hd : PhysicalExecutionHub F) where
  toLogInv := ⟨trivial, rfl, .empty⟩
  nodup := List.nodup_nil
  seen := fun _ he => absurd he List.not_mem_nil

/-- An operation that keeps the log, and forgets no id. -/
lemma IdsInv.of_eventLog_eq {hub hub' : PhysicalExecutionHub F} (h : IdsInv hub)
    (hlog : LogInv hub') (heq : hub'.eventLog = hub.eventLog)
    (hseen : hub.seenProposals ⊆ hub'.seenProposals) :
    IdsInv hub' where
  toLogInv := hlog
  nodup := by
    rw [heq]
    exact h.nodup
  seen := by
    intro e he
    rw [heq] at he
    exact hseen (h.seen e he)

/-- An operation that appends an event with a new id, and notes the id. -/
lemma IdsInv.of_eventLog_append {hub hub' : PhysicalExecutionHub F}
    {event : SequencedPhysicalEvent F} (h : IdsInv hub) (hlog : LogInv hub')
    (heq : hub'.eventLog = hub.eventLog ++ [event]) (hnew : event.proposalId ∉ hub.seenProposals)
    (hseen : hub'.seenProposals = insert event.proposalId hub.seenProposals) : IdsInv hub' where
  toLogInv := hlog
  nodup := by
    rw [heq, List.map_append]
    refine h.nodup.append (List.nodup_singleton _) fun id hid hid' => hnew ?_
    obtain ⟨e, he, rfl⟩ := List.mem_map.mp hid
    have hid' : e.proposalId = event.proposalId := List.mem_singleton.mp hid'
    rw [← hid']
    exact h.seen e he
  seen := by
    intro e he
    rw [hseen, Finset.mem_insert]
    rw [heq] at he
    rcases List.mem_append.mp he with he | he
    · exact Or.inr (h.seen e he)
    · exact Or.inl (by rw [List.mem_singleton.mp he])

/-! ## The four outcomes -/

section Submit

variable [DecidableLT F] [DecidableLE F] {E : FloatEnv F} {hub : PhysicalExecutionHub F}
  {proposal : PhysicalProposal F} {de : List String}

lemma submit_halted (h : hub.halted = true) :
    ∃ exc, hub.submit E proposal de = (hub, .error exc) := by
  rw [submit, if_pos h]
  exact ⟨_, rfl⟩

lemma submit_seen (h : hub.halted = false) (hs : proposal.proposalId ∈ hub.seenProposals) :
    hub.submit E proposal de = (hub, .error (.valueError ("Duplicate proposal_id: "
      ++ proposal.proposalId ++ ". Each proposal must have a unique ID."))) := by
  rw [submit, if_neg (by rw [h]; exact Bool.false_ne_true), if_pos hs]

/-- The hub after the id of the proposal was noted. -/
def noted (hub : PhysicalExecutionHub F) (proposal : PhysicalProposal F) :
    PhysicalExecutionHub F :=
  { hub with seenProposals := insert proposal.proposalId hub.seenProposals }

lemma submit_fresh (h : hub.halted = false) (hs : proposal.proposalId ∉ hub.seenProposals) :
    hub.submit E proposal de =
      match parseLoop E proposal.zoneTransitions.entries .empty with
      | .error exc => (hub.noted proposal, .error exc)
      | .ok zoneTransitions =>
        (((hub.noted proposal).submitEvent E (hub.sequence proposal zoneTransitions) de).1,
          .ok
            ((hub.noted proposal).submitEvent E (hub.sequence proposal zoneTransitions) de).2) := by
  rw [submit, if_neg (by rw [h]; exact Bool.false_ne_true), if_neg hs]
  cases parseLoop E proposal.zoneTransitions.entries .empty with
  | error exc => rfl
  | ok zoneTransitions => rfl

/-- A proposal that does not parse raises, and its id is noted all the same. -/
lemma submit_malformed (h : hub.halted = false) (hs : proposal.proposalId ∉ hub.seenProposals)
    (hp : ¬proposal.WellFormed) :
    ∃ exc, hub.submit E proposal de = (hub.noted proposal, .error exc) := by
  rw [submit_fresh h hs]
  cases hloop : parseLoop E proposal.zoneTransitions.entries .empty with
  | error exc => exact ⟨exc, rfl⟩
  | ok zoneTransitions => exact absurd (parseLoop_ok_iff.mp ⟨zoneTransitions, hloop⟩) hp

/-- A proposal that parses is sequenced and delivered. -/
lemma submit_wellFormed (h : hub.halted = false) (hs : proposal.proposalId ∉ hub.seenProposals)
    (hp : proposal.WellFormed) : ∃ receipt, (hub.submit E proposal de).2 = .ok receipt := by
  obtain ⟨zoneTransitions, hloop⟩ := parseLoop_ok_iff (E := E) (d := .empty) |>.mpr hp
  rw [submit_fresh h hs, hloop]
  exact ⟨_, rfl⟩

/-- If the submission raises, the hub and all its nodes are as before, and a corrected
proposal with the same id, if neither a halt nor an earlier proposal stands in its way, is
accepted. -/
structure LeavesNoTrace (E : FloatEnv F) (hub : PhysicalExecutionHub F)
    (proposal : PhysicalProposal F) (de : List String) : Prop where
  unchanged : ∀ exc, (hub.submit E proposal de).2 = .error exc → (hub.submit E proposal de).1 = hub
  retry : ∀ exc, (hub.submit E proposal de).2 = .error exc → hub.halted = false →
    proposal.proposalId ∉ hub.seenProposals →
      ∀ (corrected : PhysicalProposal F) (de' : List String),
        corrected.proposalId = proposal.proposalId → corrected.WellFormed →
      ∃ receipt, ((hub.submit E proposal de).1.submit E corrected de').2 = .ok receipt

/-- **Exact condition for one submission.** -/
theorem leavesNoTrace_iff : LeavesNoTrace E hub proposal de ↔
    hub.halted = true ∨ proposal.proposalId ∈ hub.seenProposals ∨ proposal.WellFormed := by
  constructor
  · intro hno
    by_contra hcond
    obtain ⟨hhalted, hs, hp⟩ : ¬hub.halted = true ∧ _ ∧ _ := by
      rwa [not_or, not_or] at hcond
    have hcase : ∃ exc, hub.submit E proposal de = (hub.noted proposal, .error exc) :=
      submit_malformed (by simpa using hhalted) hs hp
    obtain ⟨exc, hr⟩ := hcase
    -- the id has been noted, so the hub is not as before
    have hsame : hub.noted proposal = hub := by
      have hunchanged := hno.unchanged exc (by rw [hr])
      rwa [hr] at hunchanged
    have hseen : proposal.proposalId ∈ (hub.noted proposal).seenProposals :=
      Finset.mem_insert_self _ _
    rw [hsame] at hseen
    exact hs hseen
  · intro hcond
    have hunchanged : ∀ exc, (hub.submit E proposal de).2 = .error exc →
        (hub.submit E proposal de).1 = hub ∧
          (hub.halted = true ∨ proposal.proposalId ∈ hub.seenProposals) := by
      intro exc hexc
      by_cases hhalted : hub.halted = true
      · have hcase : ∃ exc, hub.submit E proposal de = (hub, .error exc) := submit_halted hhalted
        obtain ⟨exc', hr⟩ := hcase
        exact ⟨by rw [hr], Or.inl hhalted⟩
      · have hhalted : hub.halted = false := by simpa using hhalted
        by_cases hs : proposal.proposalId ∈ hub.seenProposals
        · exact ⟨by rw [submit_seen hhalted hs], Or.inr hs⟩
        · have hrunning : ¬hub.halted = true := by
            rw [hhalted]
            exact Bool.false_ne_true
          have hp := (hcond.resolve_left hrunning).resolve_left hs
          have hcase : ∃ receipt, (hub.submit E proposal de).2 = .ok receipt :=
            submit_wellFormed hhalted hs hp
          obtain ⟨receipt, hr⟩ := hcase
          exact absurd (hexc.symm.trans hr) (by simp)
    refine ⟨fun exc hexc => (hunchanged exc hexc).1, fun exc hexc hhalted hs => ?_⟩
    rcases (hunchanged exc hexc).2 with h | h
    · exact absurd (hhalted.symm.trans h) Bool.false_ne_true
    · exact absurd h hs

/-! ## The ids along a run -/

lemma IdsInv.submit (h : IdsInv hub) (proposal : PhysicalProposal F) (de : List String) :
    IdsInv (hub.submit E proposal de).1 := by
  have hlog : LogInv (hub.submit E proposal de).1 := h.toLogInv.perform (.submit proposal de)
  by_cases hhalted : hub.halted = true
  · have hcase : ∃ exc, hub.submit E proposal de = (hub, .error exc) := submit_halted hhalted
    obtain ⟨exc, hr⟩ := hcase
    rwa [hr]
  · have hhalted : hub.halted = false := by simpa using hhalted
    by_cases hs : proposal.proposalId ∈ hub.seenProposals
    · rwa [submit_seen hhalted hs]
    · rw [submit_fresh hhalted hs] at hlog ⊢
      cases hloop : parseLoop E proposal.zoneTransitions.entries .empty with
      | error exc =>
        rw [hloop] at hlog
        exact h.of_eventLog_eq hlog rfl (Finset.subset_insert _ _)
      | ok zoneTransitions =>
        rw [hloop] at hlog
        exact h.of_eventLog_append hlog rfl hs rfl

lemma IdsInv.releaseHeldEvents (h : IdsInv hub) (nodeId : String) :
    IdsInv (hub.releaseHeldEvents E nodeId).1 := by
  have hlog : LogInv (hub.releaseHeldEvents E nodeId).1 :=
    h.toLogInv.perform (.releaseHeldEvents nodeId)
  rw [PhysicalExecutionHub.releaseHeldEvents] at hlog ⊢
  split at hlog
  · next hhalted =>
    rwa [if_pos hhalted]
  · next hhalted =>
    rw [if_neg hhalted]
    cases hfind : hub.findNode nodeId with
    | none => exact h
    | some i =>
      rw [hfind] at hlog
      exact h.of_eventLog_eq hlog rfl (Finset.Subset.refl _)

/-- One step in the life of a hub: a node is registered, or an operation performed. -/
def act (E : FloatEnv F) (hub : PhysicalExecutionHub F) :
    PhysicalStateNode F ⊕ PhysicalHubOp F → PhysicalExecutionHub F
  | .inl node => hub.registerNode node
  | .inr op => perform E hub op

/-- **Step lemma.** -/
theorem IdsInv.act (h : IdsInv hub) (a : PhysicalStateNode F ⊕ PhysicalHubOp F) :
    IdsInv (hub.act E a) := by
  rcases a with node | ⟨proposal, de⟩ | nodeId
  · exact h.of_eventLog_eq (h.toLogInv.registerNode node) rfl (Finset.Subset.refl _)
  · exact h.submit proposal de
  · exact h.releaseHeldEvents nodeId

/-- **What a failed submission leaves behind.**  In every state a hub can reach, whatever nodes
are registered when: a submission that raises leaves the hub as it was exactly if the hub was
halted, the id had been seen, or the proposal parses, in which case it does not raise; and the
log carries the causal ids `1, …, n` and no proposal id twice. -/
theorem submit_leavesNoTrace_iff (E : FloatEnv F) (hr hd : Bool)
    (steps : List (PhysicalStateNode F ⊕ PhysicalHubOp F)) :
    let hub := Run.exec (act E) (new hr hd) steps
    (∀ (proposal : PhysicalProposal F) (de : List String), LeavesNoTrace E hub proposal de ↔
        hub.halted = true ∨ proposal.proposalId ∈ hub.seenProposals ∨ proposal.WellFormed) ∧
      (hub.eventLog.map (·.proposalId)).Nodup ∧
      hub.eventLog.map (·.causalId) = Int.range 1 (1 + hub.eventLog.length) := by
  intro hub
  have h : IdsInv hub := Run.invariant_of_forall (fun _ a h => h.act a) (.new hr hd) steps
  exact ⟨fun proposal de => leavesNoTrace_iff, h.nodup, h.numbered.map_eq_range⟩

end Submit

/-- A proposal that lets no time pass. -/
def standstillProposal (proposalId : String) : PhysicalProposal ℚ :=
  ⟨proposalId, "client", .ofList [("bow", .rates none none none none (some 0))], "standard"⟩

/-- The proposal without time raises, and the corrected proposal is taken for a duplicate. -/
theorem standstill_leaves_trace :
    let hub := Run.exec (act exactEnv) (new true true)
      [.inl (.new exactEnv "A" MultiZoneExecutor.bowAndStern.state)]
    let r := hub.submit exactEnv (standstillProposal "p1") []
    r.2 = .error (.valueError "dt must be > 0, got 0/1") ∧
      (r.1.submit exactEnv (restingProposal "p1") []).2 = .error (.valueError
        "Duplicate proposal_id: p1. Each proposal must have a unique ID.") ∧
      ¬LeavesNoTrace exactEnv hub (standstillProposal "p1") [] := by
  intro hub r
  have herror : r.2 = .error (.valueError "dt must be > 0, got 0/1") := by decide +kernel
  refine ⟨herror, by decide +kernel, fun hno => ?_⟩
  have hsame : r.1 = hub := hno.unchanged _ herror
  have hseen : "p1" ∈ r.1.seenProposals := by decide +kernel
  rw [hsame] at hseen
  exact absurd hseen (by decide +kernel)

/-- A roughness rate that is a text parses, and is rejected by the nodes. -/
example :
    let proposal : PhysicalProposal ℚ := ⟨"p1", "client", .ofList [("bow", .rates none none none
      (some (.error (.other "can't multiply sequence by non-int of type 'float'"))) none)],
      "standard"⟩
    (twoNodes.submit exactEnv proposal []).2.toOption.map (fun r => r.acks.map (·.ackType))
      = some [.rejected, .rejected] := by decide +kernel

/-! ## Inputs and their dictionaries -/

section Dictionaries

variable [DecidableLT F] [DecidableLE F] {E : FloatEnv F} {hub : PhysicalExecutionHub F}
  {proposalId clientId transitionName : String} {inputs : Dict String (TransitionInput F)}
  {de : List String}

/-- The proposal of ready inputs. -/
def ofInputs (proposalId clientId transitionName : String)
    (inputs : Dict String (TransitionInput F)) : PhysicalProposal F :=
  ⟨proposalId, clientId, inputs.mapValues fun _ inp => .input (.readable inp), transitionName⟩

/-- The proposal of the dictionaries of these inputs. -/
def ofDicts (proposalId clientId transitionName : String)
    (inputs : Dict String (TransitionInput F)) : PhysicalProposal F :=
  ⟨proposalId, clientId, inputs.mapValues fun _ inp => inp.toDict, transitionName⟩

/-- Two submissions return or raise the same (and what they return carries the event and the
acknowledgements), and leave the same event log and the same nodes. -/
def SameOutcome (r r' : Outcome (PhysicalExecutionHub F) (PhysicalExecutionReceipt F)) : Prop :=
  r.2 = r'.2 ∧ r.1.eventLog = r'.1.eventLog ∧ r.1.nodes = r'.1.nodes

/-- Ready inputs are filed as they are, whatever id they carry. -/
lemma parseLoop_ofInputs : parseLoop E
    (ofInputs proposalId clientId transitionName inputs).zoneTransitions.entries .empty
      = .ok (inputs.mapValues fun _ => .readable) :=
  parseLoop_mapValues fun _ _ => rfl

/-- The dictionary of an input gives the input back where it is filed under its id. -/
lemma parseZone_toDict {p : String × TransitionInput F} (h : p.2.zoneId = p.1) :
    parseZone E p.1 p.2.toDict = .ok (.readable p.2) := by
  rw [← h]
  exact congrArg (Except.map ZoneInput.readable) (TransitionInput.new_self E p.2)

lemma zoneId_of_parseZone_toDict {zoneId : String} {inp : TransitionInput F}
    {parsed : ZoneInput F} (h : parseZone E zoneId inp.toDict = .ok parsed) :
    parsed.zoneId = zoneId := by
  rw [TransitionInput.toDict, parseZone] at h
  cases hnew : TransitionInput.new E zoneId inp.corrosionRate inp.coatingDegradationRate
      inp.barnacleGrowthRate inp.roughnessRate inp.dt with
  | error exc => simp [hnew, Except.map] at h
  | ok made =>
    have hparsed : ZoneInput.readable made = parsed := by simpa [hnew, Except.map] using h
    rw [← hparsed]
    exact TransitionInput.zoneId_of_new hnew

/-- What is parsed from dictionaries carries the id it is filed under. -/
lemma zoneId_of_parseLoop_ofDicts {parsed : Dict String (ZoneInput F)}
    (h : parseLoop E (ofDicts proposalId clientId transitionName inputs).zoneTransitions.entries
      .empty = .ok parsed) {zoneId : String} {inp : ZoneInput F}
    (hget : parsed.get? zoneId = some inp) : inp.zoneId = zoneId := by
  rcases parseLoop_get? h hget with hempty | ⟨data, hmem, hdata⟩
  · exact absurd hempty (by simp)
  · obtain ⟨p, -, hp⟩ := List.mem_map.mp hmem
    obtain ⟨rfl, rfl⟩ := Prod.mk.inj hp
    exact zoneId_of_parseZone_toDict hdata

/-- **Inputs and dictionaries.**  In every state of the hub, submitting the dictionaries of
some inputs has the outcome of submitting the inputs themselves exactly if the hub refuses both
(it is halted, or has seen the id) or every input carries the id it is filed under. -/
theorem submit_dicts_iff (E : FloatEnv F) (hub : PhysicalExecutionHub F)
    (proposalId clientId transitionName : String) (inputs : Dict String (TransitionInput F))
    (de : List String) :
    SameOutcome (hub.submit E (ofDicts proposalId clientId transitionName inputs) de)
        (hub.submit E (ofInputs proposalId clientId transitionName inputs) de) ↔
      hub.halted = true ∨ proposalId ∈ hub.seenProposals ∨
        ∀ p ∈ inputs.entries, p.2.zoneId = p.1 := by
  by_cases hhalted : hub.halted = true
  · refine iff_of_true ?_ (Or.inl hhalted)
    rw [submit, submit, if_pos hhalted, if_pos hhalted]
    exact ⟨rfl, rfl, rfl⟩
  · have hrunning : hub.halted = false := by simpa using hhalted
    by_cases hs : proposalId ∈ hub.seenProposals
    · refine iff_of_true ?_ (Or.inr (Or.inl hs))
      rw [submit_seen hrunning hs, submit_seen hrunning hs]
      exact ⟨rfl, rfl, rfl⟩
    · rw [or_iff_right hhalted, or_iff_right hs, submit_fresh hrunning hs,
        submit_fresh hrunning hs, parseLoop_ofInputs]
      constructor
      · rintro ⟨-, hlog, -⟩ p hp
        cases hloop : parseLoop E
            (ofDicts proposalId clientId transitionName inputs).zoneTransitions.entries .empty with
        | error exc =>
          -- the dictionaries do not parse, so that no event is logged for them
          rw [hloop] at hlog
          have hlen : hub.eventLog.length = (hub.eventLog ++ [_]).length :=
            congrArg List.length hlog
          simp at hlen
        | ok parsed =>
          rw [hloop] at hlog
          have hlast : hub.sequence (ofDicts proposalId clientId transitionName inputs) parsed
              = hub.sequence (ofInputs proposalId clientId transitionName inputs)
                (inputs.mapValues fun _ => .readable) := by
            simpa using List.append_cancel_left hlog
          have hparsed : parsed = inputs.mapValues fun _ => .readable :=
            congrArg SequencedPhysicalEvent.zoneTransitions hlast
          have hget : parsed.get? p.1 = some (.readable p.2) := by
            rw [hparsed, Dict.get?_mapValues, Dict.get?_eq_some.mpr hp]
            rfl
          exact zoneId_of_parseLoop_ofDicts hloop hget
      · intro hids
        have hdicts : parseLoop E
            (ofDicts proposalId clientId transitionName inputs).zoneTransitions.entries .empty
              = .ok (inputs.mapValues fun _ => .readable) :=
          parseLoop_mapValues fun p hp => parseZone_toDict (hids p hp)
        rw [hdicts]
        exact ⟨rfl, rfl, rfl⟩

/-- An input for the stern that is filed under the bow: as an object it is refused, and the hub
halts; as a dictionary it is applied to the bow. -/
theorem stern_filed_under_bow :
    let inputs : Dict String (TransitionInput ℚ) :=
      .ofList [("bow", restingInput "stern" (by decide))]
    let objects := twoNodes.submit exactEnv (ofInputs "p1" "client" "standard" inputs) []
    let dicts := twoNodes.submit exactEnv (ofDicts "p1" "client" "standard" inputs) []
    objects.2.toOption.map (fun r => r.acks.map (·.ackType)) = some [.rejected, .rejected] ∧
      objects.1.halted = true ∧
      dicts.2.toOption.map (fun r => r.acks.map (·.ackType)) = some [.applied, .applied] ∧
      dicts.1.halted = false ∧ ¬SameOutcome dicts objects := by
  intro inputs objects dicts
  have hobjects : objects.2.toOption.map (fun r => r.acks.map (·.ackType))
      = some [.rejected, .rejected] := by decide +kernel
  have hdicts : dicts.2.toOption.map (fun r => r.acks.map (·.ackType))
      = some [.applied, .applied] := by decide +kernel
  refine ⟨hobjects, by decide +kernel, hdicts, by decide +kernel, fun hsame => ?_⟩
  rw [hsame.1, hobjects] at hdicts
  exact absurd hdicts (by decide)

end Dictionaries

end PhysicalExecutionHub

end QuantumFoundation
