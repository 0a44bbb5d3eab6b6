import Mathlib.Data.List.Forall2
import PolicyLevers.Projection.WorkerSystem

/-!
# What a client of the worker is handed

Histories of a worker and its client under every interleaving of their steps.  The client receives
responses one at a time, so the worker may go on between two of them; a response that the client
looks for in vain for long enough is one it gives up waiting for.
-/

namespace PolicyLevers

set_option autoImplicit false

/-- A response tells under the index of the request how the engine's run of it ended: with a projection, with a
failure, or with a breakdown that the run did not survive. -/
inductive Engine.Answers (engine : Engine) (request : RunRequest) : RunResponse → Prop where
  | projected {projection : Projection} (ran : engine.run request = .ok projection) :
      Answers engine request ⟨request.index, .ok projection⟩
  | failed {failure : RunFailure} (ran : engine.run request = .error (.failure failure)) :
      Answers engine request ⟨request.index, .error (.run failure)⟩
  | broken {fault : SamplerFault} (ran : engine.run request = .error (.breakdown fault)) :
      Answers engine request ⟨request.index, .error (.panicked request.index fault.message)⟩

theorem Engine.answers_respond (engine : Engine) (request : RunRequest) :
    engine.Answers request (engine.respond request) := by
  unfold Engine.respond
  cases ran : engine.run request with
  | ok projection => exact .projected ran
  | error halt =>
      cases halt with
      | failure failure => exact .failed ran
      | breakdown fault => exact .broken ran

namespace WorkerSystem

structure History where
  system : WorkerSystem
  issued : List RunRequest
  answered : List RunResponse
  /-- The responses that the client was handed, the oldest first. -/
  handed : List RunResponse

def History.start (engine : Engine) : History := ⟨{ engine := engine }, [], [], []⟩

/-- One step of the client or of the worker, and the response that it hands out. -/
inductive Step (before : History) : Option RunResponse → History → Prop where
  | request (historical projected : YearRange) (levers : List CompiledLever) (inputs : NameMap Float) :
      Step before none
        { before with
          system := before.system.request historical projected levers inputs
          issued := before.issued ++
            [⟨before.system.nextIndex, historical, projected, levers, inputs⟩] }
  | take {system : WorkerSystem} (taken : before.system.take? = some system) :
      Step before none { before with system := system }
  | reply {request : RunRequest} {system : WorkerSystem}
      (running : before.system.running = some request) (replied : before.system.reply? = some system) :
      Step before none
        { before with
          system := system
          answered := before.answered ++ [before.system.engine.respond request] }
  | poll {found : Option RunResponse} {system : WorkerSystem}
      (polled : before.system.poll = (found, system)) :
      Step before found { before with system := system, handed := before.handed ++ found.toList }
  | wait {response : RunResponse} {system : WorkerSystem}
      (waited : before.system.wait? = some (.ok response, system)) :
      Step before (some response)
        { before with system := system, handed := before.handed ++ [response] }
  /-- A wait for nothing ends at once. -/
  | refuse {error : WorkerError} {system : WorkerSystem}
      (waited : before.system.wait? = some (.error error, system)) :
      Step before none { before with system := system }
  /-- A poll or a wait receives a response to another request than the latest and goes on. -/
  | discard {stale : RunResponse} {rest : List RunResponse}
      (received : before.system.responses = stale :: rest)
      (other : before.system.latest ≠ some stale.index) :
      Step before none { before with system := { before.system with responses := rest } }

inductive Reachable (engine : Engine) : History → Prop where
  | start : Reachable engine (.start engine)
  | next {before after : History} {found : Option RunResponse} (reached : Reachable engine before)
      (step : Step before found after) : Reachable engine after

section Select

variable {latest : Option Nat} {responses : List RunResponse}

theorem select_some {response : RunResponse} {rest : List RunResponse}
    (selected : select latest responses = some (response, rest)) :
    ∃ stale, responses = stale ++ response :: rest ∧ latest = some response.index ∧
      ∀ other ∈ stale, latest ≠ some other.index := by
  induction responses with
  | nil => simp [select] at selected
  | cons head tail ih =>
      unfold select at selected
      by_cases current : latest = some head.index
      · rw [if_pos current] at selected
        cases selected
        exact ⟨[], rfl, current, by simp⟩
      · rw [if_neg current] at selected
        obtain ⟨stale, split, found, others⟩ := ih selected
        refine ⟨head :: stale, by simp [split], found, ?_⟩
        intro other member
        rcases List.mem_cons.mp member with same | later
        · exact same ▸ current
        · exact others other later

theorem select_none (selected : select latest responses = none) :
    ∀ other ∈ responses, latest ≠ some other.index := by
  induction responses with
  | nil => simp
  | cons head tail ih =>
      unfold select at selected
      by_cases current : latest = some head.index
      · rw [if_pos current] at selected
        cases selected
      · rw [if_neg current] at selected
        intro other member
        rcases List.mem_cons.mp member with same | later
        · exact same ▸ current
        · exact ih selected other later

end Select

theorem poll_some {before after : WorkerSystem} {response : RunResponse}
    (polled : before.poll = (some response, after)) :
    ∃ stale rest, before.responses = stale ++ response :: rest ∧
      before.latest = some response.index ∧ (∀ other ∈ stale, before.latest ≠ some other.index) ∧
      after = { before with responses := rest, latest := none } := by
  unfold poll at polled
  cases selected : select before.latest before.responses with
  | none => simp [selected] at polled
  | some pair =>
      obtain ⟨found, rest⟩ := pair
      simp only [selected, Prod.mk.injEq, Option.some.injEq] at polled
      obtain ⟨rfl, rfl⟩ := polled
      obtain ⟨stale, split, current, others⟩ := select_some selected
      exact ⟨stale, rest, split, current, others, rfl⟩

theorem poll_none {before after : WorkerSystem} (polled : before.poll = (none, after)) :
    (∀ other ∈ before.responses, before.latest ≠ some other.index) ∧
      after = { before with responses := [] } := by
  unfold poll at polled
  cases selected : select before.latest before.responses with
  | none =>
      simp only [selected, Prod.mk.injEq, true_and] at polled
      exact ⟨select_none selected, polled.symm⟩
  | some pair => simp [selected] at polled

theorem wait_ok {before after : WorkerSystem} {response : RunResponse}
    (waited : before.wait? = some (.ok response, after)) : before.poll = (some response, after) := by
  unfold wait? at waited
  cases latest : before.latest with
  | none => simp [latest] at waited
  | some index =>
      cases polled : before.poll with
      | mk found system => cases found <;> simp_all

theorem wait_error {before after : WorkerSystem} {error : WorkerError}
    (waited : before.wait? = some (.error error, after)) : after = before := by
  unfold wait? at waited
  cases latest : before.latest with
  | none => simp_all
  | some index =>
      cases polled : before.poll with
      | mk found system => cases found <;> simp_all

/-- Requests are numbered in order and answered in order.  No response to the latest request has been
received as long as the request is open, and it is open until its response was handed out. -/
structure Consistent (history : History) : Prop where
  numbered : history.issued.map RunRequest.index = List.range history.system.nextIndex
  inOrder : ∃ done, history.issued =
      done ++ (history.system.running.toList ++ history.system.requests) ∧
    history.answered = done.map history.system.engine.respond
  received : ∃ received, history.answered = received ++ history.system.responses ∧
    ∀ response ∈ received, history.system.latest ≠ some response.index
  current : ∀ index, history.system.latest = some index → index + 1 = history.system.nextIndex
  ascending : (history.handed.map RunResponse.index).Pairwise (· < ·)
  closed : ∀ response ∈ history.handed,
    response.index < history.system.nextIndex ∧ history.system.latest ≠ some response.index
  settled : history.system.latest = none → history.system.nextIndex ≠ 0 →
    ∃ response ∈ history.handed, response.index + 1 = history.system.nextIndex

namespace Consistent

variable {history : History}

theorem issued_index (consistent : Consistent history) {request : RunRequest}
    (member : request ∈ history.issued) : request.index < history.system.nextIndex := by
  have listed := List.mem_map_of_mem (f := RunRequest.index) member
  rw [consistent.numbered] at listed
  exact List.mem_range.mp listed

theorem answered_issued (consistent : Consistent history) {response : RunResponse}
    (member : response ∈ history.answered) :
    ∃ request ∈ history.issued, response = history.system.engine.respond request := by
  obtain ⟨done, issued, answered⟩ := consistent.inOrder
  rw [answered] at member
  obtain ⟨request, here, rfl⟩ := List.mem_map.mp member
  exact ⟨request, by rw [issued]; exact List.mem_append_left _ here, rfl⟩

theorem answered_index (consistent : Consistent history) {response : RunResponse}
    (member : response ∈ history.answered) : response.index < history.system.nextIndex := by
  obtain ⟨request, issued, rfl⟩ := consistent.answered_issued member
  exact consistent.issued_index issued

theorem last_of_index (consistent : Consistent history) {request : RunRequest}
    (member : request ∈ history.issued) (index : request.index + 1 = history.system.nextIndex) :
    history.issued.getLast? = some request ∧
      ∀ older ∈ history.issued.dropLast, older.index < request.index := by
  obtain ⟨last, issued⟩ : ∃ last, history.issued = history.issued.dropLast ++ [last] :=
    ⟨history.issued.getLast (List.ne_nil_of_mem member),
      (List.dropLast_concat_getLast (List.ne_nil_of_mem member)).symm⟩
  have numbers := consistent.numbered
  rw [issued, ← index, List.range_succ, List.map_append] at numbers
  obtain ⟨olderNumbers, lastNumber⟩ := List.append_inj' numbers (by simp)
  have lastIndex : last.index = request.index := by simpa using lastNumber
  have olderIndex : ∀ older ∈ history.issued.dropLast, older.index < request.index := by
    intro older olderMember
    have listed := List.mem_map_of_mem (f := RunRequest.index) olderMember
    rw [olderNumbers] at listed
    exact List.mem_range.mp listed
  refine ⟨?_, olderIndex⟩
  rw [issued] at member ⊢
  rcases List.mem_append.mp member with older | same
  · have := olderIndex request older
    omega
  · simp [List.mem_singleton.mp same]

theorem start (engine : Engine) : Consistent (.start engine) where
  numbered := rfl
  inOrder := ⟨[], rfl, rfl⟩
  received := ⟨[], rfl, by simp⟩
  current := by simp [History.start]
  ascending := by simp [History.start]
  closed := by simp [History.start]
  settled := by simp [History.start]

theorem request (consistent : Consistent history) (historical projected : YearRange)
    (levers : List CompiledLever) (inputs : NameMap Float) :
    Consistent
      { history with
        system := history.system.request historical projected levers inputs
        issued := history.issued ++
          [⟨history.system.nextIndex, historical, projected, levers, inputs⟩] } where
  numbered := by
    simp only [WorkerSystem.request, List.map_append, consistent.numbered, List.range_succ]
    rfl
  inOrder := by
    obtain ⟨done, issued, answered⟩ := consistent.inOrder
    exact ⟨done, by simp [WorkerSystem.request, issued], answered⟩
  received := by
    obtain ⟨received, answered, _⟩ := consistent.received
    refine ⟨received, answered, ?_⟩
    intro response member
    have := consistent.answered_index (answered ▸ List.mem_append_left _ member)
    simp only [WorkerSystem.request, ne_eq, Option.some.injEq]
    omega
  current := by
    intro index latest
    simp only [WorkerSystem.request, Option.some.injEq] at latest ⊢
    omega
  ascending := consistent.ascending
  closed := by
    intro response member
    have := (consistent.closed response member).1
    simp only [WorkerSystem.request, ne_eq, Option.some.injEq]
    omega
  settled := by simp [WorkerSystem.request]

theorem take (consistent : Consistent history) {system : WorkerSystem}
    (taken : history.system.take? = some system) :
    Consistent { history with system := system } := by
  unfold take? at taken
  cases running : history.system.running with
  | some request => simp [running] at taken
  | none =>
      cases requests : history.system.requests with
      | nil => simp [running, requests] at taken
      | cons next rest =>
          simp only [running, requests, Option.some.injEq] at taken
          subst taken
          refine ⟨consistent.numbered, ?_, consistent.received, consistent.current,
            consistent.ascending, consistent.closed, consistent.settled⟩
          obtain ⟨done, issued, answered⟩ := consistent.inOrder
          exact ⟨done, by simpa [running, requests] using issued, answered⟩

theorem reply (consistent : Consistent history) {request : RunRequest} {system : WorkerSystem}
    (running : history.system.running = some request)
    (replied : history.system.reply? = some system) :
    Consistent
      { history with
        system := system
        answered := history.answered ++ [history.system.engine.respond request] } := by
  simp only [reply?, running, Option.map_some, Option.some.injEq] at replied
  subst replied
  refine ⟨consistent.numbered, ?_, ?_, consistent.current, consistent.ascending,
    consistent.closed, consistent.settled⟩
  · obtain ⟨done, issued, answered⟩ := consistent.inOrder
    exact ⟨done ++ [request], by simp [issued, running], by simp [answered]⟩
  · obtain ⟨received, answered, others⟩ := consistent.received
    exact ⟨received, by simp [answered], others⟩

theorem drop (consistent : Consistent history) {stale rest : List RunResponse}
    (split : history.system.responses = stale ++ rest)
    (others : ∀ other ∈ stale, history.system.latest ≠ some other.index) :
    Consistent { history with system := { history.system with responses := rest } } := by
  refine ⟨consistent.numbered, consistent.inOrder, ?_, consistent.current, consistent.ascending,
    consistent.closed, consistent.settled⟩
  obtain ⟨received, answered, before⟩ := consistent.received
  refine ⟨received ++ stale, by simp [answered, split], ?_⟩
  intro response member
  rcases List.mem_append.mp member with earlier | dropped
  · exact before response earlier
  · exact others response dropped

theorem handOut (consistent : Consistent history) {stale rest : List RunResponse}
    {response : RunResponse} (split : history.system.responses = stale ++ response :: rest)
    (latest : history.system.latest = some response.index) :
    Consistent
      { history with
        system := { history.system with responses := rest, latest := none }
        handed := history.handed ++ [response] } where
  numbered := consistent.numbered
  inOrder := consistent.inOrder
  received := by
    obtain ⟨received, answered, _⟩ := consistent.received
    exact ⟨received ++ stale ++ [response], by simp [answered, split], by simp⟩
  current := by simp
  ascending := by
    rw [List.map_append, List.pairwise_append]
    refine ⟨consistent.ascending, by simp, ?_⟩
    intro index member last same
    obtain ⟨earlier, handed, rfl⟩ := List.mem_map.mp member
    obtain ⟨before, open_⟩ := consistent.closed earlier handed
    have next := consistent.current response.index latest
    rw [latest] at open_
    simp only [List.map_cons, List.map_nil, List.mem_singleton] at same
    simp only [ne_eq, Option.some.injEq] at open_
    omega
  closed := by
    intro other member
    refine ⟨?_, by simp⟩
    rcases List.mem_append.mp member with earlier | same
    · exact (consistent.closed other earlier).1
    · have next := consistent.current response.index latest
      obtain rfl := List.mem_singleton.mp same
      simp only
      omega
  settled := by
    intro _ _
    exact ⟨response, by simp, consistent.current response.index latest⟩

theorem step (consistent : Consistent history) {after : History} {found : Option RunResponse}
    (step : Step history found after) : Consistent after := by
  cases step with
  | request historical projected levers inputs =>
      exact consistent.request historical projected levers inputs
  | take taken => exact consistent.take taken
  | reply running replied => exact consistent.reply running replied
  | poll polled =>
      cases found with
      | none =>
          obtain ⟨others, rfl⟩ := poll_none polled
          have all := (List.append_nil history.system.responses).symm
          simpa using consistent.drop all others
      | some response =>
          obtain ⟨stale, rest, split, latest, _, rfl⟩ := poll_some polled
          exact consistent.handOut split latest
  | wait waited =>
      obtain ⟨stale, rest, split, latest, _, rfl⟩ := poll_some (wait_ok waited)
      exact consistent.handOut split latest
  | refuse waited =>
      obtain rfl := wait_error waited
      exact consistent
  | discard received other =>
      have first := received.trans (List.singleton_append).symm
      exact consistent.drop first (by simpa using other)

end Consistent

theorem Step.engine {before after : History} {found : Option RunResponse}
    (step : Step before found after) : after.system.engine = before.system.engine := by
  cases step with
  | request => rfl
  | take taken =>
      unfold take? at taken
      split at taken
      · cases taken
        rfl
      · cases taken
  | reply running replied =>
      simp only [reply?, running, Option.map_some, Option.some.injEq] at replied
      subst replied
      rfl
  | poll polled =>
      cases found with
      | none =>
          obtain ⟨_, rfl⟩ := poll_none polled
          rfl
      | some response =>
          obtain ⟨_, _, _, _, _, rfl⟩ := poll_some polled
          rfl
  | wait waited =>
      obtain ⟨_, _, _, _, _, rfl⟩ := poll_some (wait_ok waited)
      rfl
  | refuse waited =>
      obtain rfl := wait_error waited
      rfl
  | discard => rfl

theorem Reachable.consistent {engine : Engine} {history : History}
    (reached : Reachable engine history) : Consistent history := by
  induction reached with
  | start => exact .start engine
  | next _ step ih => exact ih.step step

theorem Reachable.engine {engine : Engine} {history : History}
    (reached : Reachable engine history) : history.system.engine = engine := by
  induction reached with
  | start => rfl
  | next _ step ih => exact step.engine.trans ih

theorem Consistent.latest_response {history : History} (consistent : Consistent history)
    {response : RunResponse} (arrived : response ∈ history.answered)
    (latest : history.system.latest = some response.index) :
    ∃ request, history.issued.getLast? = some request ∧
      response = history.system.engine.respond request ∧
      ∀ older ∈ history.issued.dropLast, older.index ≠ response.index := by
  obtain ⟨request, issued, rfl⟩ := consistent.answered_issued arrived
  obtain ⟨last, before⟩ := consistent.last_of_index issued
    (consistent.current request.index latest)
  refine ⟨request, last, rfl, ?_⟩
  intro older member same
  have := before older member
  simp only [Engine.respond] at same
  omega

theorem Consistent.step_found {history after : History} {response : RunResponse}
    (consistent : Consistent history) (step : Step history (some response) after) :
    response ∈ history.answered ∧ history.system.latest = some response.index := by
  have polled : ∃ system, history.system.poll = (some response, system) := by
    cases step with
    | poll polled => exact ⟨_, polled⟩
    | wait waited => exact ⟨_, wait_ok waited⟩
  obtain ⟨system, polled⟩ := polled
  obtain ⟨stale, rest, split, latest, _, _⟩ := poll_some polled
  obtain ⟨received, answered, _⟩ := consistent.received
  exact ⟨by simp [answered, split], latest⟩

theorem Consistent.last_index {history : History} (consistent : Consistent history)
    {request : RunRequest} (last : history.issued.getLast? = some request) :
    request.index + 1 = history.system.nextIndex := by
  obtain ⟨front, issued⟩ := List.getLast?_eq_some_iff.mp last
  have numbers := consistent.numbered
  have count := congrArg List.length numbers
  rw [issued] at numbers count
  simp only [List.map_append, List.length_append, List.length_map, List.length_range,
    List.map_cons, List.map_nil, List.length_cons, List.length_nil] at numbers count
  rw [← count, List.range_succ] at numbers
  obtain ⟨_, same⟩ := List.append_inj' numbers rfl
  simp only [List.cons.injEq, and_true] at same
  omega

theorem Consistent.owner_of_last {history : History} (consistent : Consistent history)
    {request owner : RunRequest} (last : history.issued.getLast? = some request)
    (issued : owner ∈ history.issued) (same : owner.index = request.index) : owner = request := by
  have index := consistent.last_index last
  obtain ⟨owned, _⟩ := consistent.last_of_index issued (by omega)
  exact Option.some.inj (owned.symm.trans last)

theorem select_of_split {latest : Option Nat} {stale rest : List RunResponse}
    {response : RunResponse} (current : latest = some response.index)
    (others : ∀ other ∈ stale, latest ≠ some other.index) :
    select latest (stale ++ response :: rest) = some (response, rest) := by
  induction stale with
  | nil => simp [select, current]
  | cons head tail ih =>
      have here := others head (by simp)
      rw [List.cons_append, select, if_neg here]
      exact ih (fun other member => others other (by simp [member]))

/-- The reply to the latest request waits behind stale ones only, until it is handed out. -/
theorem Consistent.open_response {history : History} (consistent : Consistent history)
    {request : RunRequest} (last : history.issued.getLast? = some request)
    (arrived : history.system.engine.respond request ∈ history.answered)
    (waiting : ∀ response ∈ history.handed, response.index ≠ request.index) :
    ∃ stale rest,
      history.system.responses = stale ++ history.system.engine.respond request :: rest ∧
      history.system.latest = some request.index ∧
      ∀ other ∈ stale, other.index ≠ request.index := by
  have index := consistent.last_index last
  have latest : history.system.latest = some request.index := by
    cases latest : history.system.latest with
    | none =>
        obtain ⟨response, handed, same⟩ := consistent.settled latest (by omega)
        exact absurd (by omega) (waiting response handed)
    | some other =>
        have := consistent.current other latest
        exact congrArg some (by omega)
  obtain ⟨received, answered, before⟩ := consistent.received
  -- what was received before is not the latest reply, so the reply is still in the channel
  have here : history.system.engine.respond request ∈ history.system.responses := by
    rw [answered] at arrived
    rcases List.mem_append.mp arrived with gone | here
    · exact absurd latest (before _ gone)
    · exact here
  cases selected : select history.system.latest history.system.responses with
  | none => exact absurd latest (select_none selected _ here)
  | some pair =>
      obtain ⟨response, rest⟩ := pair
      obtain ⟨stale, split, current, others⟩ := select_some selected
      obtain ⟨owner, owned, rfl, _⟩ := consistent.latest_response
        (by rw [answered, split]; simp) current
      rw [last] at owned
      cases owned
      refine ⟨stale, rest, split, latest, ?_⟩
      intro other member same
      exact others other member (by rw [latest, same])

/-- The worker answers the requests in order, each with the outcome of its own run.  Whatever a client is handed is
the answer to its latest request, no request is answered to it twice, and an answer to the latest request that has
arrived is what the next poll or wait hands out. -/
theorem latest_request_is_answered_once {engine : Engine} {history : History}
    (reached : Reachable engine history) :
    (∃ done, history.issued = done ++ (history.system.running.toList ++ history.system.requests) ∧
      List.Forall₂ engine.Answers done history.answered) ∧
    (∀ response after, Step history (some response) after →
      ∃ request, history.issued.getLast? = some request ∧ engine.Answers request response ∧
        response.index = request.index ∧
        ∀ older ∈ history.issued.dropLast, older.index ≠ response.index) ∧
    (history.issued.map RunRequest.index).Pairwise (· < ·) ∧
    (history.handed.map RunResponse.index).Pairwise (· < ·) ∧
    ∀ request response, history.issued.getLast? = some request → response ∈ history.answered →
      response.index = request.index →
      (∀ earlier ∈ history.handed, earlier.index ≠ request.index) →
        engine.Answers request response ∧
        ∃ stale rest, history.system.responses = stale ++ response :: rest ∧
          (∀ other ∈ stale, other.index ≠ request.index) ∧
          history.system.poll = (some response,
            { history.system with responses := rest, latest := none }) ∧
          history.system.wait? = some (.ok response,
            { history.system with responses := rest, latest := none }) := by
  have consistent := reached.consistent
  obtain rfl := reached.engine
  refine ⟨?_, ?_, by rw [consistent.numbered]; exact List.pairwise_lt_range, consistent.ascending, ?_⟩
  · obtain ⟨done, issued, answered⟩ := consistent.inOrder
    refine ⟨done, issued, ?_⟩
    rw [answered, List.forall₂_map_right_iff, List.forall₂_same]
    exact fun request _ => Engine.answers_respond _ request
  · intro response after step
    obtain ⟨arrived, latest⟩ := consistent.step_found step
    obtain ⟨request, last, rfl, older⟩ := consistent.latest_response arrived latest
    exact ⟨request, last, Engine.answers_respond _ request, rfl, older⟩
  · intro request response last arrived own waiting
    obtain ⟨owner, issued, rfl⟩ := consistent.answered_issued arrived
    obtain rfl : owner = request := consistent.owner_of_last last issued own
    refine ⟨Engine.answers_respond _ owner, ?_⟩
    obtain ⟨stale, rest, split, latest, others⟩ := consistent.open_response last arrived waiting
    have polled : history.system.poll = (some (history.system.engine.respond owner),
        { history.system with responses := rest, latest := none }) := by
      rw [poll, split, select_of_split latest]
      intro other member current
      rw [latest] at current
      exact others other member (by simpa using current.symm)
    refine ⟨stale, rest, split, others, polled, ?_⟩
    simp only [wait?, latest, polled]

def wideLever : CompiledLever :=
  ⟨"wide", 0, ⟨[.define "a" (.uniform (.number 0.0)
    (.number (Float.ofBits 0x7FEFFFFFFFFFFFFF)))], 10⟩⟩

def wideEngine : Engine := ⟨.ofRecords [⟨2020, "china", .ofList [("eolRecyclingMT", 1.0)]⟩], 0, false⟩

def wideRequest : RunRequest := ⟨0, ⟨2020, 2019⟩, ⟨2020, 2020⟩, [wideLever], ∅⟩

def plainRequest : RunRequest := ⟨1, ⟨2020, 2019⟩, ⟨2020, 2020⟩, [], ∅⟩

/-- The second request is sent while the worker is at the first; both are answered. -/
def wideHistory : History where
  system :=
    { engine := wideEngine
      responses := [wideEngine.respond wideRequest, wideEngine.respond plainRequest]
      nextIndex := 2
      latest := some 1 }
  issued := [wideRequest, plainRequest]
  answered := [wideEngine.respond wideRequest, wideEngine.respond plainRequest]
  handed := []

theorem wide_history_reachable : Reachable wideEngine wideHistory := by
  have nothing : Reachable wideEngine _ := .start
  have first := Reachable.next nothing
    (.request ⟨2020, 2019⟩ ⟨2020, 2020⟩ [wideLever] ∅)
  have taken := Reachable.next first (.take rfl)
  have second := Reachable.next taken (.request ⟨2020, 2019⟩ ⟨2020, 2020⟩ [] ∅)
  have replied := Reachable.next second (.reply rfl rfl)
  have takenAgain := Reachable.next replied (.take rfl)
  exact Reachable.next takenAgain (.reply rfl rfl)

def isPanic (response : RunResponse) : Bool :=
  match response.outcome with
  | .error (.panicked _ _) => true
  | _ => false

def figure? (response : RunResponse) (year : Int) (region name : String) : Option Float :=
  response.outcome.toOption.bind (fun projection => (projection.get? year).bind (fun state =>
    (state.region? region).bind (fun attributes => attributes.get? name)))

/-- The next poll drops the reply of a run that broke down and hands out the projection behind it. -/
theorem wide_history_poll :
    Reachable wideEngine wideHistory ∧
    (∃ fault, wideEngine.run wideRequest = .error (.breakdown fault)) ∧
    ∃ response after projection, wideHistory.system.poll = (some response, after) ∧
      wideEngine.run plainRequest = .ok projection ∧ response = ⟨1, .ok projection⟩ ∧
      figure? response 2020 "china" "eolRecyclingMT" = some 1.0 := by
  have panicked : isPanic (wideEngine.respond wideRequest) = true := by decide +kernel
  have figure : figure? (wideEngine.respond plainRequest) 2020 "china" "eolRecyclingMT" = some 1.0 := by
    decide +kernel
  obtain ⟨_, _, _, _, next⟩ := latest_request_is_answered_once wide_history_reachable
  obtain ⟨answered, _, _, _, _, polled, _⟩ := next plainRequest (wideEngine.respond plainRequest) rfl
    (by simp [wideHistory]) rfl (by simp [wideHistory])
  refine ⟨wide_history_reachable, ?_, ?_⟩
  · have dropped := Engine.answers_respond wideEngine wideRequest
    generalize wideEngine.respond wideRequest = response at dropped panicked
    cases dropped with
    | projected ran => cases panicked
    | failed ran => cases panicked
    | broken ran => exact ⟨_, ran⟩
  · generalize wideEngine.respond plainRequest = response at answered polled figure
    cases answered with
    | projected ran => exact ⟨_, _, _, polled, ran, rfl, figure⟩
    | failed ran => cases figure
    | broken ran => cases figure

end WorkerSystem

end PolicyLevers
