import Patchwright.Codex.Protocol
import Patchwright.Library.Exchange

/-!
# Runs of the protocol decoder

The decoder answers three calls, in any order and with any lines.  What a run
leaves behind is a history of requests and the turns it has reported as
completed.  The history is orderly and no turn is reported twice.  A refused
call changes nothing, except for one: a response that carries neither a result
nor an error is refused after the request it names has been given up.
-/

namespace Patchwright.Protocol

open Checked
open Exchange (IsOpen Orderly)

/-! ### One line -/

/-- The response names a request that waits, and says nothing. -/
def IsHollow (decoder : ProtocolDecoder) (line : ServerLine) : Prop :=
  ∃ fields value id, line.length ≤ maxLineBytes ∧ line.value = .ok (.obj fields) ∧
    ProtocolDecoder.hasVersion (.obj fields) = true ∧
    (Json.obj fields).get? "id" = some value ∧
    ((Json.obj fields).get? "method").bind Json.asStr? = none ∧
    decodeRequestId value = .ok id ∧ id ∈ decoder.pendingRequests ∧
    (Json.obj fields).get? "error" = none ∧ (Json.obj fields).get? "result" = none

/-- The turn that a message reports as completed. -/
def IncomingMessage.completedTurn? : IncomingMessage → Option (String × String)
  | .event (.turnCompleted threadId turnId _) => some (threadId, turnId)
  | _ => none

/-- The request that a message answers. -/
def IncomingMessage.answeredRequest? : IncomingMessage → Option RequestId
  | .response answer => some answer.id
  | _ => none

/-- What a line can do to the decoder. -/
inductive Decoded (decoder : ProtocolDecoder) (line : ServerLine) :
    ProtocolDecoder × Except ProtocolError IncomingMessage → Prop
  | refused (error : ProtocolError) (hfull : ¬ IsHollow decoder line) :
      Decoded decoder line (decoder, .error error)
  | passed (message : IncomingMessage) (hanswered : message.answeredRequest? = none)
      (hcompleted : message.completedTurn? = none) : Decoded decoder line (decoder, .ok message)
  | answered (response : ResponseEnvelope) (hpending : response.id ∈ decoder.pendingRequests) :
      Decoded decoder line (decoder.cancelRequest response.id, .ok (.response response))
  | hollow (id : RequestId) (error : ProtocolError) (hhollow : IsHollow decoder line)
      (hpending : id ∈ decoder.pendingRequests) :
      Decoded decoder line (decoder.cancelRequest id, .error error)
  | completed (threadId turnId : String) (status : TurnStatus)
      (hnew : (threadId, turnId) ∉ decoder.completedTurns) :
      Decoded decoder line
        ({ decoder with completedTurns := insert (threadId, turnId) decoder.completedTurns },
          .ok (.event (.turnCompleted threadId turnId status)))

section Lines

variable {decoder : ProtocolDecoder} {line : ServerLine} {fields : List (String × Json)}

/-- Only a response can be hollow. -/
theorem not_isHollow_of_method {method : String} (hvalue : line.value = .ok (.obj fields))
    (hmethod : ((Json.obj fields).get? "method").bind Json.asStr? = some method) :
    ¬ IsHollow decoder line := by
  rintro ⟨others, value, id, _, hothers, _, _, hnone, _⟩
  cases hvalue.symm.trans hothers
  cases hnone.symm.trans hmethod

theorem not_isHollow_of_id (hvalue : line.value = .ok (.obj fields))
    (hid : (Json.obj fields).get? "id" = none) : ¬ IsHollow decoder line := by
  rintro ⟨others, value, id, _, hothers, _, hsome, _⟩
  cases hvalue.symm.trans hothers
  cases hsome.symm.trans hid

theorem decodeItem_message {params : Option Json} {started : Bool} {event : CodexEvent}
    (hevent : decodeItem params started = .ok event) :
    (IncomingMessage.event event).completedTurn? = none := by
  simp only [decodeItem, bind_eq_ok, pure_eq_ok] at hevent
  obtain ⟨_, _, _, _, _, _, _, _, _, _, rfl⟩ := hevent
  cases started <;> rfl

theorem decodeError_message {params : Option Json} {event : CodexEvent}
    (hevent : decodeError params = .ok event) :
    (IncomingMessage.event event).completedTurn? = none := by
  simp only [decodeError, bind_eq_ok, pure_eq_ok] at hevent
  obtain ⟨_, _, _, _, _, _, _, _, rfl⟩ := hevent
  rfl

/-- An event that is no completion leaves the decoder as it is. -/
theorem decoded_event {result : Except ProtocolError CodexEvent} (hfull : ¬ IsHollow decoder line)
    (hevent : ∀ event, result = .ok event →
      (IncomingMessage.event event).completedTurn? = none) :
    Decoded decoder line (decoder, IncomingMessage.event <$> result) := by
  cases result with
  | error error => exact .refused error hfull
  | ok event => exact .passed (.event event) rfl (hevent event rfl)

theorem decoded_completion {params : Option Json} (hfull : ¬ IsHollow decoder line) :
    Decoded decoder line ((decoder.decodeCompletion params).1,
      IncomingMessage.event <$> (decoder.decodeCompletion params).2) := by
  rw [ProtocolDecoder.decodeCompletion]
  cases hread : readCompletion params with
  | error error => exact .refused error hfull
  | ok completion =>
      dsimp only
      split
      next hold => exact .refused _ hfull
      next hnew => exact .completed completion.1 completion.2.1 completion.2.2 hnew

theorem decoded_notification (method : String) (params : Option Json)
    (hfull : ¬ IsHollow decoder line) :
    Decoded decoder line (decoder.decodeNotification method params) := by
  unfold ProtocolDecoder.decodeNotification
  split
  · exact .passed _ rfl rfl
  · exact decoded_event hfull fun _ => decodeItem_message
  · exact decoded_event hfull fun _ => decodeItem_message
  · exact decoded_completion hfull
  · exact decoded_event hfull fun _ => decodeError_message
  · exact .passed _ rfl rfl

theorem decoded_serverRequest (id : Json) (method : String) (params : Option Json)
    (hfull : ¬ IsHollow decoder line) :
    Decoded decoder line (decoder, decodeServerRequest id method params) := by
  cases hrequest : decodeServerRequest id method params with
  | error error => exact .refused error hfull
  | ok message =>
      simp only [decodeServerRequest, bind_eq_ok, pure_eq_ok] at hrequest
      obtain ⟨_, _, _, _, rfl⟩ := hrequest
      exact .passed _ rfl rfl

theorem decoded_response {id : Json} (hlength : line.length ≤ maxLineBytes)
    (hvalue : line.value = .ok (.obj fields))
    (hversion : ProtocolDecoder.hasVersion (.obj fields) = true)
    (hid : (Json.obj fields).get? "id" = some id)
    (hmethod : ((Json.obj fields).get? "method").bind Json.asStr? = none) :
    Decoded decoder line (decoder.decodeResponse id (.obj fields)) := by
  have hhollow : ∀ {request}, decodeRequestId id = .ok request →
      (IsHollow decoder line ↔ request ∈ decoder.pendingRequests ∧
        (Json.obj fields).get? "error" = none ∧ (Json.obj fields).get? "result" = none) := by
    intro request hrequest
    constructor
    · rintro ⟨others, value, other, _, hothers, _, hother, _, hdecoded, hrest⟩
      cases hvalue.symm.trans hothers
      cases hid.symm.trans hother
      cases hrequest.symm.trans hdecoded
      exact hrest
    · exact fun hrest => ⟨fields, id, request, hlength, hvalue, hversion, hid, hmethod, hrequest,
        hrest⟩
  rw [ProtocolDecoder.decodeResponse]
  cases hrequest : decodeRequestId id with
  | error error =>
      apply Decoded.refused
      rintro ⟨others, value, other, _, hothers, _, hother, _, hdecoded, _⟩
      cases hvalue.symm.trans hothers
      cases hid.symm.trans hother
      cases hrequest.symm.trans hdecoded
  | ok request =>
      dsimp only
      split
      next hpending =>
        rw [responsePayload]
        cases herror : (Json.obj fields).get? "error" with
        | some error => exact .answered ⟨request, error, true⟩ hpending
        | none =>
            cases hresult : (Json.obj fields).get? "result" with
            | some result => exact .answered ⟨request, result, false⟩ hpending
            | none =>
                have hline := (hhollow hrequest).mpr ⟨hpending, herror, hresult⟩
                exact .hollow request _ hline hpending
      next hunknown =>
        exact .refused _ fun hline => hunknown ((hhollow hrequest).mp hline).1

/-- Every line does one of these things. -/
theorem decodeLine_decoded (decoder : ProtocolDecoder) (line : ServerLine) :
    Decoded decoder line (decoder.decodeLine line) := by
  rw [ProtocolDecoder.decodeLine]
  split
  next hlong =>
    exact .refused _ fun ⟨_, _, _, hlength, _⟩ => absurd hlength (Nat.not_le_of_gt hlong)
  next hlength =>
    split
    next error hvalue =>
      exact .refused _ fun ⟨_, _, _, _, hfields, _⟩ => nomatch hvalue.symm.trans hfields
    next fields hvalue =>
      split
      next hversion =>
        unfold ProtocolDecoder.decodeObject
        split
        next id method hid hmethod =>
          exact decoded_serverRequest id method _ (not_isHollow_of_method hvalue hmethod)
        next id hid hmethod =>
          exact decoded_response (Nat.not_lt.mp hlength) hvalue hversion hid hmethod
        next method hid hmethod =>
          exact decoded_notification method _ (not_isHollow_of_method hvalue hmethod)
        next hid hmethod => exact .refused _ (not_isHollow_of_id hvalue hid)
      next hversion =>
        refine .refused _ ?_
        rintro ⟨others, _, _, _, hothers, hother, _⟩
        cases hvalue.symm.trans hothers
        exact hversion hother
    next value hobject hvalue =>
      exact .refused _ fun ⟨fields, _, _, _, hfields, _⟩ =>
        hobject fields (Except.ok.inj (hvalue.symm.trans hfields))

/-- A hollow response is refused once its request has been given up. -/
theorem decodeLine_hollow (hhollow : IsHollow decoder line) :
    ∃ id error, id ∈ decoder.pendingRequests ∧
      decoder.decodeLine line = (decoder.cancelRequest id, .error error) := by
  obtain ⟨fields, value, id, hlength, hvalue, hversion, hid, hmethod, hrequest, hpending, herror,
    hresult⟩ := hhollow
  refine ⟨id, .missingField "result", hpending, ?_⟩
  rw [ProtocolDecoder.decodeLine, if_neg (Nat.not_lt.mpr hlength), hvalue]
  dsimp only
  rw [if_pos hversion, ProtocolDecoder.decodeObject, hid, hmethod]
  dsimp only
  rw [ProtocolDecoder.decodeResponse, hrequest]
  dsimp only
  rw [if_pos hpending, responsePayload, herror, hresult]
  rfl

end Lines

/-! ### Calls -/

inductive DecoderCall where
  | register (id : RequestId)
  | cancel (id : RequestId)
  | decode (line : ServerLine)

inductive DecoderResult where
  | registered (outcome : Except ProtocolError Unit)
  | cancelled (found : Bool)
  | decoded (outcome : Except ProtocolError IncomingMessage)

/-- One call of a run: the decoder before and after it, and what it returned. -/
structure DecoderStep where
  before : ProtocolDecoder
  call : DecoderCall
  after : ProtocolDecoder
  result : DecoderResult

namespace ProtocolDecoder

def perform (decoder : ProtocolDecoder) : DecoderCall → ProtocolDecoder × DecoderResult
  | .register id =>
      match decoder.registerRequest id with
      | .ok registered => (registered, .registered (.ok ()))
      | .error error => (decoder, .registered (.error error))
  | .cancel id => (decoder.cancelRequest id, .cancelled (id ∈ decoder.pendingRequests))
  | .decode line => ((decoder.decodeLine line).1, .decoded (decoder.decodeLine line).2)

def stepOf (decoder : ProtocolDecoder) (call : DecoderCall) : DecoderStep :=
  ⟨decoder, call, (decoder.perform call).1, (decoder.perform call).2⟩

def steps (decoder : ProtocolDecoder) : List DecoderCall → List DecoderStep
  | [] => []
  | call :: calls => decoder.stepOf call :: (decoder.stepOf call).after.steps calls

end ProtocolDecoder

namespace DecoderStep

/-- What the call adds to the history of requests. -/
def event? (step : DecoderStep) : Option (Exchange.Event RequestId) :=
  match step.call, step.result with
  | .register id, .registered (.ok _) => some (.opened id)
  | .cancel id, _ => some (.withdrawn id)
  | .decode _, .decoded (.ok message) => message.answeredRequest?.map .answered
  | _, _ => none

/-- The turn that the call reports as completed. -/
def completed? (step : DecoderStep) : Option (String × String) :=
  match step.result with
  | .decoded (.ok message) => message.completedTurn?
  | _ => none

def refused (step : DecoderStep) : Bool :=
  match step.result with
  | .registered (.error _) | .decoded (.error _) => true
  | _ => false

/-- The call decodes a hollow response. -/
def Hollow (step : DecoderStep) : Prop :=
  match step.call with
  | .decode line => IsHollow step.before line
  | _ => False

end DecoderStep

/-! ### Books -/

/-- What the decoder knows about the requests and the turns so far. -/
structure Books (decoder : ProtocolDecoder) (history : List (Exchange.Event RequestId))
    (reported : List (String × String)) : Prop where
  orderly : Orderly history
  pending : ∀ id ∈ decoder.pendingRequests, IsOpen id history
  nodup : reported.Nodup
  completed : ∀ turn ∈ reported, turn ∈ decoder.completedTurns

section Steps

variable {decoder : ProtocolDecoder} {history : List (Exchange.Event RequestId)}
  {reported : List (String × String)}

theorem Books.register (hbooks : Books decoder history reported) (id : RequestId) :
    Books { decoder with pendingRequests := insert id decoder.pendingRequests }
      (history ++ [.opened id]) reported where
  orderly := hbooks.orderly.concat nofun
  pending := by
    intro other hother
    rcases Finset.mem_insert.mp hother with rfl | hother
    · exact Exchange.isOpen_opened
    · exact (hbooks.pending other hother).concat nofun nofun
  nodup := hbooks.nodup
  completed := hbooks.completed

/-- A request is taken off the books by any event but one that opens it. -/
theorem Books.remove (hbooks : Books decoder history reported) (id : RequestId)
    {event : Exchange.Event RequestId} (hevent : event = .answered id ∨ event = .withdrawn id)
    (hanswer : event = .answered id → id ∈ decoder.pendingRequests) :
    Books (decoder.cancelRequest id) (history ++ [event]) reported where
  orderly := by
    apply hbooks.orderly.concat
    intro other hother
    rcases hevent with rfl | rfl
    · cases hother
      exact hbooks.pending id (hanswer rfl)
    · cases hother
  pending := by
    intro other hother
    obtain ⟨hne, hpending⟩ := Finset.mem_erase.mp hother
    apply (hbooks.pending other hpending).concat
    · rintro rfl
      rcases hevent with hsame | hsame <;> cases hsame
      exact hne rfl
    · rintro rfl
      rcases hevent with hsame | hsame <;> cases hsame
      exact hne rfl
  nodup := hbooks.nodup
  completed := hbooks.completed

theorem Books.lose (hbooks : Books decoder history reported) (id : RequestId) :
    Books (decoder.cancelRequest id) history reported where
  orderly := hbooks.orderly
  pending := fun other hother => hbooks.pending other (Finset.mem_of_mem_erase hother)
  nodup := hbooks.nodup
  completed := hbooks.completed

theorem Books.complete (hbooks : Books decoder history reported) {turn : String × String}
    (hnew : turn ∉ decoder.completedTurns) :
    Books { decoder with completedTurns := insert turn decoder.completedTurns } history
      (reported ++ [turn]) where
  orderly := hbooks.orderly
  pending := hbooks.pending
  nodup := hbooks.nodup.append (List.nodup_singleton turn) <| by
    rw [List.disjoint_singleton]
    exact fun hreported => hnew (hbooks.completed turn hreported)
  completed := by
    intro other hother
    rcases List.mem_append.mp hother with hother | hother
    · exact Finset.mem_insert_of_mem (hbooks.completed other hother)
    · rw [List.mem_singleton.mp hother]
      exact Finset.mem_insert_self _ _

/-- Every call keeps the books. -/
theorem Books.step (hbooks : Books decoder history reported) (call : DecoderCall) :
    Books (decoder.stepOf call).after (history ++ (decoder.stepOf call).event?.toList)
      (reported ++ (decoder.stepOf call).completed?.toList) := by
  cases call with
  | register id =>
      rw [ProtocolDecoder.stepOf, ProtocolDecoder.perform]
      cases hregister : decoder.registerRequest id with
      | error error => simpa [DecoderStep.event?, DecoderStep.completed?] using hbooks
      | ok registered =>
          simp only [ProtocolDecoder.registerRequest, bind_eq_ok, pure_eq_ok] at hregister
          obtain ⟨_, _, _, _, rfl⟩ := hregister
          simpa [DecoderStep.event?, DecoderStep.completed?] using hbooks.register id
  | cancel id =>
      have hremoved := hbooks.remove id (.inr rfl) (by rintro ⟨⟩)
      simpa [ProtocolDecoder.stepOf, ProtocolDecoder.perform, DecoderStep.event?,
        DecoderStep.completed?] using hremoved
  | decode line =>
      have hdecoded := decodeLine_decoded decoder line
      rw [ProtocolDecoder.stepOf, ProtocolDecoder.perform]
      generalize decoder.decodeLine line = result at hdecoded
      cases hdecoded with
      | refused error => simpa [DecoderStep.event?, DecoderStep.completed?] using hbooks
      | passed message hanswered hcompleted =>
          simpa [DecoderStep.event?, DecoderStep.completed?, hanswered, hcompleted] using hbooks
      | answered response hpending =>
          have hremoved := hbooks.remove response.id (.inl rfl) fun _ => hpending
          simpa [DecoderStep.event?, DecoderStep.completed?, IncomingMessage.answeredRequest?,
            IncomingMessage.completedTurn?] using hremoved
      | hollow id error hhollow hpending =>
          simpa [DecoderStep.event?, DecoderStep.completed?] using hbooks.lose id
      | completed threadId turnId status hnew =>
          simpa [DecoderStep.event?, DecoderStep.completed?, IncomingMessage.answeredRequest?,
            IncomingMessage.completedTurn?] using hbooks.complete hnew

/-- Every run keeps the books. -/
theorem Books.run (hbooks : Books decoder history reported) (calls : List DecoderCall) :
    Orderly (history ++ (decoder.steps calls).filterMap DecoderStep.event?) ∧
      (reported ++ (decoder.steps calls).filterMap DecoderStep.completed?).Nodup := by
  induction calls generalizing decoder history reported with
  | nil => simpa [ProtocolDecoder.steps] using And.intro hbooks.orderly hbooks.nodup
  | cons call calls ih =>
      have hrest := ih (hbooks.step call)
      rw [List.append_assoc, List.append_assoc] at hrest
      rw [ProtocolDecoder.steps]
      simpa only [List.filterMap_eq_flatMap_toList, List.flatMap_cons] using hrest

/-- A refused call changes the decoder exactly when it decodes a hollow response. -/
theorem refused_iff_hollow (call : DecoderCall) :
    ((decoder.stepOf call).refused = true → (decoder.stepOf call).after = decoder) ↔
      ¬ (decoder.stepOf call).Hollow := by
  cases call with
  | register id =>
      refine iff_of_true ?_ not_false
      rw [ProtocolDecoder.stepOf, ProtocolDecoder.perform]
      cases decoder.registerRequest id with
      | error error => exact fun _ => rfl
      | ok registered => exact nofun
  | cancel id => exact iff_of_true nofun not_false
  | decode line =>
      change ((decoder.stepOf (.decode line)).refused = true →
        (decoder.decodeLine line).1 = decoder) ↔ ¬ IsHollow decoder line
      constructor
      · intro hkept hhollow
        obtain ⟨id, error, hpending, hline⟩ := decodeLine_hollow hhollow
        rw [ProtocolDecoder.stepOf, ProtocolDecoder.perform, hline] at hkept
        have hsame : decoder.pendingRequests.erase id = decoder.pendingRequests :=
          congrArg ProtocolDecoder.pendingRequests (hkept rfl)
        rw [← hsame] at hpending
        exact Finset.notMem_erase id decoder.pendingRequests hpending
      · intro hfull hrefused
        have hdecoded := decodeLine_decoded decoder line
        rw [ProtocolDecoder.stepOf, ProtocolDecoder.perform] at hrefused
        generalize decoder.decodeLine line = result at hdecoded hrefused
        cases hdecoded with
        | refused error => rfl
        | passed message hanswered hcompleted => rfl
        | answered response hpending => cases hrefused
        | hollow id error hhollow hpending => exact absurd hhollow hfull
        | completed threadId turnId status hnew => cases hrefused

end Steps

/-! ### Runs -/

/-- The bookkeeping of a run is exact: a response is accepted only for a request
that was registered and has been neither answered nor cancelled since, none is
accepted twice for one registration, no turn is reported twice, and a refused
call changes nothing. -/
structure ExactBooks (steps : List DecoderStep) : Prop where
  answers : Orderly (steps.filterMap DecoderStep.event?)
  once : ∀ earlier id middle later, steps.filterMap DecoderStep.event? =
    earlier ++ .answered id :: (middle ++ .answered id :: later) → .opened id ∈ middle
  completions : (steps.filterMap DecoderStep.completed?).Nodup
  refusals : ∀ step ∈ steps, step.refused = true →
    step.after.pendingRequests = step.before.pendingRequests ∧
      step.after.completedTurns = step.before.completedTurns

theorem books_new : Books .new [] [] where
  orderly := Exchange.orderly_nil
  pending := nofun
  nodup := List.nodup_nil
  completed := nofun

/-- The refusals of a run change nothing exactly when it decodes no hollow
response. -/
theorem refusals_iff (decoder : ProtocolDecoder) (calls : List DecoderCall) :
    (∀ step ∈ decoder.steps calls, step.refused = true →
      step.after.pendingRequests = step.before.pendingRequests ∧
        step.after.completedTurns = step.before.completedTurns) ↔
      ∀ step ∈ decoder.steps calls, ¬ step.Hollow := by
  induction calls generalizing decoder with
  | nil => exact iff_of_true nofun nofun
  | cons call calls ih =>
      rw [ProtocolDecoder.steps, List.forall_mem_cons, List.forall_mem_cons, ih,
        ← refused_iff_hollow call, ← ProtocolDecoder.mk.injEq]
      rfl

/-- The bookkeeping of a run is exact exactly when the run decodes no hollow
response. -/
theorem exactBooks_iff (calls : List DecoderCall) :
    ExactBooks (ProtocolDecoder.new.steps calls) ↔
      ∀ step ∈ ProtocolDecoder.new.steps calls, ¬ step.Hollow := by
  rw [← refusals_iff]
  constructor
  · exact ExactBooks.refusals
  · intro hrefusals
    obtain ⟨hanswers, hcompletions⟩ := books_new.run calls
    rw [List.nil_append] at hanswers hcompletions
    refine ⟨hanswers, ?_, hcompletions, hrefusals⟩
    intro earlier id middle later hhistory
    rw [hhistory] at hanswers
    exact hanswers.opened_between

namespace Sample

/-- A response to request 1 that has neither a result nor an error. -/
def hollowLine : ServerLine where
  length := 8
  value := .ok (.obj [("id", .int 1)])

end Sample

/-- The request is given up although its response is refused. -/
theorem hollow_response_gives_up :
    ¬ ExactBooks (ProtocolDecoder.new.steps
      [.register (.number 1), .decode Sample.hollowLine]) := by
  intro hbooks
  have hkept := hbooks.refusals _ (List.mem_cons_of_mem _ List.mem_cons_self) rfl
  exact absurd hkept.1 (by decide)

end Patchwright.Protocol
