import Mathlib.Data.Finset.Erase
import Mathlib.Data.Finset.Insert
import Mathlib.Data.List.Infix

/-!
# Sending with retries and a replay protection

`_send_with_retry` of `stp_bridge.py`.  The nonce of the payload is registered before every attempt,
and an attempt whose nonce is registered does not post.  After some reactions the nonce stays
registered, so that the next attempt of the same call is taken for a replay.
-/

namespace QuantumFoundation.StpBridge

/-! ### The endpoint -/

/-- How the endpoint reacts to a post: with a status code and a content, which may be empty, and
which may fail to be JSON with a message, or with an exception. -/
inductive Reaction (γ : Type*)
  | response (statusCode : ℕ) (content : Option (Except String γ))
  | exception (message : String)

/-- The status codes of a success. -/
def successCodes : List ℕ := [200, 201]

/-- The status codes of the temporary errors. -/
def temporaryCodes : List ℕ := [429, 500, 502, 503, 504]

/-- The check for an error of the connection. -/
def isConnectionError (message : String) : Bool :=
  decide ("Max retries exceeded".toList <:+: message.toList) ||
    decide ("Connection refused".toList <:+: message.toList)

/-! ### Sending -/

/-- A payload, with or without a nonce. -/
structure Payload (β : Type*) where
  nonce : Option String
  fields : β

/-- The attributes of a bridge that sending changes. -/
structure Bridge where
  nonceStore : Finset String
  status : String

/-- The bridge in a call, and the payloads posted so far with the numbers of the attempts. -/
structure Sending (β : Type*) extends Bridge where
  posts : List (ℕ × Payload β)

/-- What is returned. -/
structure SendResult (γ : Type*) where
  statusCode : ℕ
  response : Option γ
  attempt : ℕ

/-- What is raised. -/
inductive SendError
  | http (statusCode : ℕ) (detail : String)
  | exception (message : String)

section Operations

variable {β γ : Type*} (reactions : ℕ → Reaction γ) (payload : Payload β)

namespace Sending

/-- The nonce is registered. -/
def register (s : Sending β) : Sending β :=
  { s with
    nonceStore := match payload.nonce with
      | none => s.nonceStore
      | some nonce => insert nonce s.nonceStore }

/-- The nonce is discarded. -/
def discard (s : Sending β) : Sending β :=
  { s with
    nonceStore := match payload.nonce with
      | none => s.nonceStore
      | some nonce => s.nonceStore.erase nonce }

/-- The payload is posted. -/
def post (attempt : ℕ) (s : Sending β) : Sending β :=
  { s with posts := s.posts ++ [(attempt, payload)] }

/-- The handler of the exceptions. -/
def handle (message : String) (s : Sending β) : Sending β × Except SendError (SendResult γ) :=
  (if isConnectionError message then s else s.discard payload, .error (.exception message))

/-- What is done with a response whose content was read. -/
def receive (attempt statusCode : ℕ) (data : Option γ) (s : Sending β) :
    Sending β × Except SendError (SendResult γ) :=
  if statusCode ∈ successCodes then (s, .ok ⟨statusCode, data, attempt + 1⟩)
  else
    (if statusCode ∉ temporaryCodes then s.discard payload else s,
      .error (.http statusCode ("InsightFlow returned status " ++ toString statusCode)))

/-- One attempt.  The endpoint reacts to the posts in order. -/
def tryOnce (attempt : ℕ) (s : Sending β) : Sending β × Except SendError (SendResult γ) :=
  if payload.nonce.any fun nonce => nonce ∈ s.nonceStore then
    s.handle payload "Duplicate nonce detected - possible replay attack"
  else
    let posted := (s.register payload).post payload attempt
    match reactions s.posts.length with
    | .exception message => posted.handle payload message
    | .response _ (some (.error message)) => posted.handle payload message
    | .response statusCode (some (.ok data)) =>
      posted.receive payload attempt statusCode (some data)
    | .response statusCode none => posted.receive payload attempt statusCode none

/-- The loop over the attempts that are left. -/
def tryAll : ℕ → ℕ → SendError → Sending β → Sending β × Except SendError (SendResult γ)
  | 0, _, lastException, s => ({ s with status := "degraded" }, .error lastException)
  | left + 1, attempt, _, s =>
    match s.tryOnce reactions payload attempt with
    | (s, .ok result) => (s, .ok result)
    | (s, .error exc) => tryAll left (attempt + 1) exc s

end Sending

/-- `_send_with_retry`. -/
def sendWithRetry (retryAttempts : ℕ) (bridge : Bridge) :
    Sending β × Except SendError (SendResult γ) :=
  Sending.tryAll reactions payload retryAttempts 0 (.exception "Unknown error") ⟨bridge, []⟩

end Operations

/-! ### Kinds of reactions -/

namespace Reaction

variable {γ : Type*}

/-- A status code of a success. -/
def isSuccess : Reaction γ → Bool
  | .response statusCode _ => decide (statusCode ∈ successCodes)
  | .exception _ => false

/-- A response whose content is empty or JSON. -/
def readable : Reaction γ → Bool
  | .response _ (some (.error _)) => false
  | .response _ _ => true
  | .exception _ => false

/-- A reaction after which the nonce stays registered: a temporary error, or an exception of the
connection. -/
def keepsNonce : Reaction γ → Bool
  | .response _ (some (.error message)) => isConnectionError message
  | .response statusCode _ => decide (statusCode ∈ temporaryCodes)
  | .exception message => isConnectionError message

end Reaction

/-! ### Sending until the first success -/

section Law

variable {β γ : Type*} (reactions : ℕ → Reaction γ) (payload : Payload β)

/-- The attempts up to the first success, of those that are left. -/
def due : ℕ → ℕ → List ℕ
  | 0, _ => []
  | left + 1, attempt =>
    attempt :: if (reactions attempt).isSuccess then [] else due left (attempt + 1)

/-- What the law asks of the attempts that are left: the payload is posted on every attempt up to
the first success, something is returned exactly if there is one, and then the nonce stays
registered. -/
structure SendsUntilSuccess (nonce : String) (left attempt : ℕ) (s : Sending β)
    (r : Sending β × Except SendError (SendResult γ)) : Prop where
  posts : r.1.posts = s.posts ++ (due reactions left attempt).map fun a => (a, payload)
  returns : r.2.isOk = true ↔ ∃ i < left, (reactions (attempt + i)).isSuccess = true
  registered : r.2.isOk = true → nonce ∈ r.1.nonceStore

/-- Up to the first success, whose content can be read, no reaction keeps the nonce, but perhaps the
last. -/
def Retriable : ℕ → ℕ → Prop
  | 0, _ => True
  | left + 1, attempt =>
    if (reactions attempt).isSuccess then (reactions attempt).readable = true
    else (left = 0 ∨ (reactions attempt).keepsNonce = false) ∧ Retriable left (attempt + 1)

instance Retriable.instDecidable : ∀ left attempt, Decidable (Retriable reactions left attempt)
  | 0, _ => .isTrue trivial
  | left + 1, attempt =>
    have : Decidable (Retriable reactions left (attempt + 1)) :=
      Retriable.instDecidable left (attempt + 1)
    inferInstanceAs (Decidable (ite _ _ _))

namespace Sending

variable {payload} {nonce : String} {s : Sending β} {attempt : ℕ}

@[simp] lemma posts_register : (s.register payload).posts = s.posts := rfl

@[simp] lemma posts_discard : (s.discard payload).posts = s.posts := rfl

@[simp] lemma posts_handle (message : String) :
    (s.handle payload message : _ × Except SendError (SendResult γ)).1.posts = s.posts := by
  rw [handle]
  split_ifs <;> rfl

@[simp] lemma posts_receive (statusCode : ℕ) (data : Option γ) :
    (s.receive payload attempt statusCode data).1.posts = s.posts := by
  rw [receive]
  split_ifs <;> rfl

lemma nonceStore_register (h : payload.nonce = some nonce) :
    (s.register payload).nonceStore = insert nonce s.nonceStore := by
  rw [register, h]

lemma nonceStore_discard (h : payload.nonce = some nonce) :
    (s.discard payload).nonceStore = s.nonceStore.erase nonce := by
  rw [discard, h]

variable (payload attempt) in
lemma receive_cases (statusCode : ℕ) (data : Option γ) :
    (decide (statusCode ∈ successCodes) = true ∧ ∃ result,
      s.receive payload attempt statusCode data = (s, .ok result)) ∨
    decide (statusCode ∈ successCodes) = false ∧ ∃ exc,
      s.receive payload attempt statusCode data =
        (if decide (statusCode ∈ temporaryCodes) then s else s.discard payload, .error exc) := by
  rw [receive]
  by_cases hsuccess : statusCode ∈ successCodes
  · exact Or.inl ⟨decide_eq_true hsuccess, _, if_pos hsuccess⟩
  · refine Or.inr ⟨decide_eq_false hsuccess,
      .http statusCode ("InsightFlow returned status " ++ toString statusCode), ?_⟩
    by_cases htemporary : statusCode ∈ temporaryCodes <;> simp [hsuccess, htemporary]

/-- **An attempt with a fresh nonce** posts, and returns exactly if it is a success that can be
read; otherwise the reaction decides about the nonce. -/
theorem tryOnce_cases (attempt : ℕ) (hnonce : payload.nonce = some nonce)
    (hfresh : nonce ∉ s.nonceStore) :
    ((reactions s.posts.length).isSuccess = true ∧ (reactions s.posts.length).readable = true ∧
      ∃ result, s.tryOnce reactions payload attempt =
        ((s.register payload).post payload attempt, .ok result)) ∨
    ((reactions s.posts.length).isSuccess = false ∨ (reactions s.posts.length).readable = false) ∧
      ∃ exc, s.tryOnce reactions payload attempt =
        (if (reactions s.posts.length).keepsNonce then (s.register payload).post payload attempt
          else ((s.register payload).post payload attempt).discard payload, .error exc) := by
  have hnew : payload.nonce.any (fun nonce => decide (nonce ∈ s.nonceStore)) = false := by
    rw [hnonce]
    exact decide_eq_false hfresh
  rw [tryOnce, hnew]
  cases hreaction : reactions s.posts.length with
  | exception message => exact Or.inr ⟨Or.inl rfl, _, rfl⟩
  | response statusCode content =>
    match content with
    | some (.error message) => exact Or.inr ⟨Or.inr rfl, _, rfl⟩
    | some (.ok data) =>
      rcases receive_cases payload attempt statusCode (some data) with
        ⟨hsuccess, result, hr⟩ | ⟨hsuccess, exc, hr⟩
      · exact Or.inl ⟨hsuccess, rfl, result, hr⟩
      · exact Or.inr ⟨Or.inl hsuccess, exc, hr⟩
    | none =>
      rcases receive_cases payload attempt statusCode none with
        ⟨hsuccess, result, hr⟩ | ⟨hsuccess, exc, hr⟩
      · exact Or.inl ⟨hsuccess, rfl, result, hr⟩
      · exact Or.inr ⟨Or.inl hsuccess, exc, hr⟩

/-- **An attempt with a registered nonce** does not post. -/
theorem tryOnce_of_mem (hnonce : payload.nonce = some nonce) (hmem : nonce ∈ s.nonceStore) :
    s.tryOnce reactions payload attempt =
      (s.discard payload, .error (.exception "Duplicate nonce detected - possible replay attack"))
        := by
  have hdup : payload.nonce.any (fun nonce => decide (nonce ∈ s.nonceStore)) = true := by
    rw [hnonce]
    exact decide_eq_true hmem
  rw [tryOnce, if_pos hdup, handle, if_neg (by decide)]

variable (payload)

/-- What an attempt posts. -/
lemma posts_tryOnce_cases (s : Sending β) (attempt : ℕ) :
    ((s.tryOnce reactions payload attempt).1.posts = s.posts ∧
      (s.tryOnce reactions payload attempt).2.isOk = false) ∨
    (s.tryOnce reactions payload attempt).1.posts = s.posts ++ [(attempt, payload)] := by
  cases hdup : payload.nonce.any fun nonce => decide (nonce ∈ s.nonceStore) with
  | true =>
    rw [tryOnce, hdup]
    exact Or.inl ⟨posts_handle _, rfl⟩
  | false =>
    refine Or.inr ?_
    rw [tryOnce, hdup]
    cases reactions s.posts.length with
    | exception message => exact posts_handle message
    | response statusCode content =>
      match content with
      | some (.error message) => exact posts_handle message
      | some (.ok data) => exact posts_receive statusCode (some data)
      | none => exact posts_receive statusCode none

/-- What the attempts that are left post: nothing for those made before, and something if something
is returned. -/
lemma posts_tryAll (left attempt : ℕ) (exc : SendError) (s : Sending β) :
    ∃ posts, (tryAll reactions payload left attempt exc s).1.posts = s.posts ++ posts ∧
      (∀ p ∈ posts, attempt ≤ p.1) ∧
      ((tryAll reactions payload left attempt exc s).2.isOk = true → posts ≠ []) := by
  induction left generalizing attempt exc s with
  | zero => exact ⟨[], (List.append_nil _).symm, nofun, nofun⟩
  | succ left ih =>
    have hposts := posts_tryOnce_cases reactions payload s attempt
    rw [tryAll]
    cases hr : s.tryOnce reactions payload attempt with
    | mk s' r =>
      rw [hr] at hposts
      cases r with
      | ok result =>
        rcases hposts with ⟨-, hfalse⟩ | hpost
        · exact absurd hfalse nofun
        · exact ⟨[(attempt, payload)], hpost, by simp, nofun⟩
      | error exc' =>
        obtain ⟨posts, heq, hle, hne⟩ := ih (attempt + 1) exc' s'
        rcases hposts with ⟨hsame, -⟩ | hpost
        · exact ⟨posts, by rw [heq, hsame], fun p hp => Nat.le_of_succ_le (hle p hp), hne⟩
        · refine ⟨(attempt, payload) :: posts, by rw [heq, hpost, List.append_assoc]; rfl, ?_,
            fun _ => List.cons_ne_nil _ _⟩
          exact List.forall_mem_cons.mpr ⟨le_rfl, fun p hp => Nat.le_of_succ_le (hle p hp)⟩

end Sending

variable {reactions payload} {nonce : String} {s : Sending β} {left attempt : ℕ}
  {r : Sending β × Except SendError (SendResult γ)}

/-- A success among the attempts that are left is the first, or among the others. -/
lemma exists_success_succ : (∃ i < left + 1, (reactions (attempt + i)).isSuccess = true) ↔
    (reactions attempt).isSuccess = true ∨
      ∃ i < left, (reactions (attempt + 1 + i)).isSuccess = true := by
  rw [Nat.exists_lt_succ_left]
  refine or_congr_right (exists_congr fun i => and_congr_right fun _ => ?_)
  rw [Nat.add_right_comm, Nat.add_assoc]

/-- A failed attempt that was posted leaves the law to the others. -/
lemma SendsUntilSuccess.succ_iff {s' : Sending β}
    (hfail : (reactions attempt).isSuccess = false)
    (hposts : s'.posts = s.posts ++ [(attempt, payload)]) :
    SendsUntilSuccess reactions payload nonce (left + 1) attempt s r ↔
      SendsUntilSuccess reactions payload nonce left (attempt + 1) s' r := by
  have hdue : s.posts ++ (due reactions (left + 1) attempt).map (fun a => (a, payload)) =
      s'.posts ++ (due reactions left (attempt + 1)).map fun a => (a, payload) := by
    rw [due, hfail, hposts, List.append_assoc]
    rfl
  have hexists : (∃ i < left + 1, (reactions (attempt + i)).isSuccess = true) ↔
      ∃ i < left, (reactions (attempt + 1 + i)).isSuccess = true := by
    rw [exists_success_succ, hfail]
    exact or_iff_right nofun
  constructor
  · rintro ⟨hp, hreturns, hregistered⟩
    exact ⟨hp.trans hdue, hreturns.trans hexists, hregistered⟩
  · rintro ⟨hp, hreturns, hregistered⟩
    exact ⟨hp.trans hdue.symm, hreturns.trans hexists.symm, hregistered⟩

/-- A success that was not returned is followed by another post, or by nothing. -/
lemma not_sendsUntilSuccess_of_lost {exc : SendError} {s' : Sending β}
    (hsuccess : (reactions attempt).isSuccess = true)
    (hposts : s'.posts = s.posts ++ [(attempt, payload)]) :
    ¬SendsUntilSuccess reactions payload nonce (left + 1) attempt s
      (Sending.tryAll reactions payload left (attempt + 1) exc s') := by
  rintro ⟨hp, hreturns, -⟩
  obtain ⟨posts, heq, -, hne⟩ := Sending.posts_tryAll reactions payload left (attempt + 1) exc s'
  have hok := hreturns.mpr (exists_success_succ.mpr (Or.inl hsuccess))
  rw [heq, due, hsuccess, hposts] at hp
  exact hne hok (List.append_right_eq_self.mp hp)

/-- While the nonce is registered, the next attempt is not posted. -/
lemma not_sendsUntilSuccess_of_registered {exc : SendError} {s' : Sending β}
    (hnonce : payload.nonce = some nonce) (hfail : (reactions attempt).isSuccess = false)
    (hposts : s'.posts = s.posts ++ [(attempt, payload)]) (hmem : nonce ∈ s'.nonceStore) :
    ¬SendsUntilSuccess reactions payload nonce (left + 1 + 1) attempt s
      (Sending.tryAll reactions payload (left + 1) (attempt + 1) exc s') := by
  intro h
  have hp := ((SendsUntilSuccess.succ_iff hfail hposts).mp h).posts
  rw [Sending.tryAll, Sending.tryOnce_of_mem reactions hnonce hmem] at hp
  obtain ⟨posts, heq, hle, -⟩ := Sending.posts_tryAll reactions payload left (attempt + 1 + 1)
    (.exception "Duplicate nonce detected - possible replay attack") (s'.discard payload)
  rw [heq, Sending.posts_discard, due, List.map_cons] at hp
  -- the post that the law asks for has the number of the attempt that was skipped
  have hskipped := hle (attempt + 1, payload) (List.append_cancel_left hp ▸ List.mem_cons_self)
  exact absurd hskipped (Nat.not_succ_le_self (attempt + 1))

lemma retriable_of_success (h : (reactions attempt).isSuccess = true) :
    Retriable reactions (left + 1) attempt ↔ (reactions attempt).readable = true := by
  rw [Retriable, if_pos h]

lemma retriable_of_failure (h : (reactions attempt).isSuccess = false) :
    Retriable reactions (left + 1) attempt ↔
      (left = 0 ∨ (reactions attempt).keepsNonce = false) ∧
        Retriable reactions left (attempt + 1) := by
  rw [Retriable, if_neg (by rw [h]; exact nofun)]

/-- No attempts are left. -/
lemma sendsUntilSuccess_zero (exc : SendError) :
    SendsUntilSuccess reactions payload nonce 0 attempt s
      (Sending.tryAll reactions payload 0 attempt exc s) :=
  ⟨(List.append_nil _).symm, ⟨nofun, fun ⟨i, hi, _⟩ => absurd hi (Nat.not_lt_zero i)⟩, nofun⟩

/-- **Step by step.**  With a fresh nonce, the attempts that are left are as the law asks exactly if
the reactions allow for it. -/
theorem tryAll_sendsUntilSuccess_iff (hnonce : payload.nonce = some nonce) {exc : SendError}
    (hfresh : nonce ∉ s.nonceStore) (hattempt : s.posts.length = attempt) :
    SendsUntilSuccess reactions payload nonce left attempt s
      (Sending.tryAll reactions payload left attempt exc s) ↔ Retriable reactions left attempt := by
  induction left generalizing attempt exc s with
  | zero => exact iff_of_true (sendsUntilSuccess_zero exc) trivial
  | succ left ih =>
    subst hattempt
    have hregistered : nonce ∈ ((s.register payload).post payload s.posts.length).nonceStore :=
      Sending.nonceStore_register (s := s) hnonce ▸ Finset.mem_insert_self nonce s.nonceStore
    have hposts : ((s.register payload).post payload s.posts.length).posts =
      s.posts ++ [(s.posts.length, payload)] := rfl
    rcases Sending.tryOnce_cases reactions s.posts.length hnonce hfresh with
      ⟨hsuccess, hreadable, result, hr⟩ | ⟨hlost, exc', hr⟩
    · -- the first success is returned
      rw [Sending.tryAll, hr, retriable_of_success hsuccess]
      refine iff_of_true ⟨?_, ⟨fun _ => ⟨0, Nat.succ_pos _, hsuccess⟩, fun _ => rfl⟩, fun _ =>
        hregistered⟩ hreadable
      rw [due, hsuccess]
      rfl
    · cases hsuccess : (reactions s.posts.length).isSuccess with
      | true =>
        rw [Sending.tryAll, hr, retriable_of_success hsuccess]
        refine iff_of_false (not_sendsUntilSuccess_of_lost hsuccess ?_) fun hreadable => ?_
        · split_ifs <;> rfl
        · rw [hsuccess, hreadable] at hlost
          exact hlost.elim nofun nofun
      | false =>
        rw [retriable_of_failure hsuccess]
        cases hkeeps : (reactions s.posts.length).keepsNonce with
        | true =>
          rw [hkeeps, if_pos rfl] at hr
          rw [Sending.tryAll, hr]
          cases left with
          | zero =>
            rw [SendsUntilSuccess.succ_iff hsuccess hposts]
            exact iff_of_true (sendsUntilSuccess_zero exc') ⟨Or.inl rfl, trivial⟩
          | succ left =>
            refine iff_of_false (not_sendsUntilSuccess_of_registered hnonce hsuccess hposts
              hregistered) ?_
            rintro ⟨hlast | hfalse, -⟩
            · exact absurd hlast nofun
            · exact absurd hfalse nofun
        | false =>
          rw [hkeeps, if_neg nofun] at hr
          have hfresh' : nonce ∉
              (((s.register payload).post payload s.posts.length).discard payload).nonceStore := by
            rw [Sending.nonceStore_discard hnonce]
            exact Finset.notMem_erase nonce _
          have hposts' : (((s.register payload).post payload s.posts.length).discard
              payload).posts = s.posts ++ [(s.posts.length, payload)] := hposts
          rw [Sending.tryAll, hr, SendsUntilSuccess.succ_iff hsuccess hposts']
          refine (ih hfresh' (hposts' ▸ List.length_append)).trans ?_
          exact ⟨fun h => ⟨Or.inr rfl, h⟩, fun h => h.2⟩

/-- **Sending.**  With a fresh nonce, the payload is posted on every attempt up to the first success
and something is returned exactly if there is one among the attempts, after which the nonce is
registered, exactly if up to the first success, which can be read, no reaction but that of the last
attempt keeps the nonce. -/
theorem sends_until_success_iff (hnonce : payload.nonce = some nonce) {bridge : Bridge}
    (hfresh : nonce ∉ bridge.nonceStore) (reactions : ℕ → Reaction γ) (retryAttempts : ℕ) :
    SendsUntilSuccess reactions payload nonce retryAttempts 0 ⟨bridge, []⟩
      (sendWithRetry reactions payload retryAttempts bridge) ↔
      Retriable reactions retryAttempts 0 :=
  tryAll_sendsUntilSuccess_iff hnonce hfresh rfl

end Law

/-! ### Two endpoints -/

/-- A payload with a nonce. -/
def message : Payload Unit := ⟨some "6f1c2a3e-0d57-4c3b-9a51-2f8e4b7c9d10", ()⟩

/-- The endpoint does not know the path at first. -/
def notFoundOnce : ℕ → Reaction Unit
  | 0 => .response 404 none
  | _ => .response 200 (some (.ok ()))

/-- The endpoint is not available at first. -/
def unavailableOnce : ℕ → Reaction Unit
  | 0 => .response 503 none
  | _ => .response 200 (some (.ok ()))

theorem sent_after_not_found :
    SendsUntilSuccess notFoundOnce message "6f1c2a3e-0d57-4c3b-9a51-2f8e4b7c9d10" 2 0
      ⟨⟨∅, "active"⟩, []⟩ (sendWithRetry notFoundOnce message 2 ⟨∅, "active"⟩) :=
  (sends_until_success_iff rfl (Finset.notMem_empty _) notFoundOnce 2).mpr (by decide)

/-- The second attempt is taken for a replay of the first, although the endpoint would accept it. -/
theorem lost_after_unavailable :
    ¬SendsUntilSuccess unavailableOnce message "6f1c2a3e-0d57-4c3b-9a51-2f8e4b7c9d10" 2 0
      ⟨⟨∅, "active"⟩, []⟩ (sendWithRetry unavailableOnce message 2 ⟨∅, "active"⟩) := fun h =>
  absurd (h.returns.mpr ⟨1, by decide, by decide⟩) (by decide +kernel)

end QuantumFoundation.StpBridge
