import QuantumFoundation.Lib.Repetition
import QuantumFoundation.Physical.Submission

/-!
# Retried submissions

A client that gets no answer sends its proposal again.  The hub takes note of every id it is
given, also of one whose proposal it cannot parse, and turns the id down from then on; a hub that
was halted when it was given the id stays halted.  So the nodes, the log and the receipts are
those of a run in which every proposal is sent once.
-/

namespace QuantumFoundation

variable {F : Type*} [LT F] [LE F] [OfScientific F]

/-- The id that an operation submits. -/
def PhysicalHubOp.proposalId : PhysicalHubOp F → Option String
  | .submit proposal _ => some proposal.proposalId
  | .releaseHeldEvents _ => none

namespace PhysicalExecutionHub

/-- The hub does nothing for a proposal with this id. -/
def TurnsDown (proposalId : String) (hub : PhysicalExecutionHub F) : Prop :=
  hub.halted = true ∨ proposalId ∈ hub.seenProposals

variable [DecidableLT F] [DecidableLE F] {E : FloatEnv F} {hub : PhysicalExecutionHub F}

/-- A halted hub does nothing any more. -/
lemma perform_of_halted (h : hub.halted = true) (op : PhysicalHubOp F) :
    perform E hub op = hub := by
  cases op with
  | submit proposal de =>
    obtain ⟨exc, hr⟩ : ∃ exc, hub.submit E proposal de = (hub, .error exc) := submit_halted h
    rw [perform, hr]
  | releaseHeldEvents nodeId => rw [perform, releaseHeldEvents, if_pos h]

lemma exec_of_halted (h : hub.halted = true) (ops : List (PhysicalHubOp F)) :
    Run.exec (perform E) hub ops = hub := by
  induction ops with
  | nil => rfl
  | cons op ops ih => rw [Run.exec_cons, perform_of_halted h, ih]

/-- No operation forgets an id. -/
lemma seenProposals_subset_perform (hub : PhysicalExecutionHub F) (op : PhysicalHubOp F) :
    hub.seenProposals ⊆ (perform E hub op).seenProposals := by
  cases op with
  | submit proposal de =>
    rw [perform, submit]
    split
    · exact Finset.Subset.refl _
    · split
      · exact Finset.Subset.refl _
      · cases parseLoop E proposal.zoneTransitions.entries .empty with
        | error exc => exact Finset.subset_insert _ _
        | ok zoneTransitions => exact Finset.subset_insert _ _
  | releaseHeldEvents nodeId =>
    rw [perform, releaseHeldEvents]
    split
    · exact Finset.Subset.refl _
    · cases hub.findNode nodeId <;> exact Finset.Subset.refl _

/-- A hub that is given an id turns it down afterwards. -/
lemma turnsDown_submit (hub : PhysicalExecutionHub F) (proposal : PhysicalProposal F)
    (de : List String) : TurnsDown proposal.proposalId (hub.submit E proposal de).1 := by
  rw [submit]
  split
  · next h => exact Or.inl h
  · split
    · next h => exact Or.inr h
    · refine Or.inr ?_
      cases parseLoop E proposal.zoneTransitions.entries .empty with
      | error exc => exact Finset.mem_insert_self _ _
      | ok zoneTransitions => exact Finset.mem_insert_self _ _

/-- The hub notes the ids of the proposals, and does nothing for one it has noted. -/
lemma notes_perform (E : FloatEnv F) :
    Run.Notes (perform E) PhysicalHubOp.proposalId (TurnsDown (F := F)) where
  keeps k hub op h := by
    rcases h with h | h
    · rw [perform_of_halted h]
      exact Or.inl h
    · exact Or.inr (seenProposals_subset_perform hub op h)
  notes k hub op h := by
    cases op with
    | submit proposal de =>
      obtain rfl : proposal.proposalId = k := Option.some.inj h
      exact turnsDown_submit hub proposal de
    | releaseHeldEvents nodeId => exact absurd h.symm (Option.some_ne_none k)
  skips k hub op h hk := by
    cases op with
    | submit proposal de =>
      obtain rfl : proposal.proposalId = k := Option.some.inj h
      rw [perform, submit]
      split
      · rfl
      · next hh => rw [if_pos (hk.resolve_left hh)]
    | releaseHeldEvents nodeId => exact absurd h.symm (Option.some_ne_none k)

/-- **Retries leave no trace.**  Whatever a hub is in, and in whatever order submissions, retries
and releases reach it: the run without the submissions whose id the hub had seen or was given
before ends in the same hub, with the same nodes, log, receipts and held events, and submits no
id twice. -/
theorem exec_without_retries (E : FloatEnv F) (hub : PhysicalExecutionHub F)
    (ops : List (PhysicalHubOp F)) :
    let once := Run.firsts PhysicalHubOp.proposalId hub.seenProposals ops
    Run.exec (perform E) hub ops = Run.exec (perform E) hub once ∧ once.Sublist ops ∧
      (once.filterMap PhysicalHubOp.proposalId).Nodup ∧
      ∀ id ∈ once.filterMap PhysicalHubOp.proposalId, id ∉ hub.seenProposals := by
  intro once
  obtain ⟨hnodup, hnew⟩ := Run.nodup_firsts PhysicalHubOp.proposalId hub.seenProposals ops
  have hsame : Run.exec (perform E) hub once = Run.exec (perform E) hub ops :=
    (notes_perform E).exec_firsts (fun _ hk => Or.inr hk) ops
  exact ⟨hsame.symm, Run.firsts_sublist _ ops, hnodup, hnew⟩

end PhysicalExecutionHub

end QuantumFoundation
