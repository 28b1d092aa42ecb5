import Agent33.Agents.LoopInvariants
import Agent33.Llm.Router

/-!
# Streaming along the fallback chain

Where every provider streams, a streamed call goes the way of a completed one: the
same candidates, the same end. It stays with the candidate that has yielded a chunk.
That nothing streams is never said, since every candidate counts as attempted.
-/

namespace Agent33.Llm

open Library Hoare List EStateM

def RouterEvent.tried? : RouterEvent → Option (Text × Text × Text)
  | .tried candidate provider model => some (candidate, provider, model)
  | .chunk _ => none

def RouterEvent.chunk? : RouterEvent → Option LLMStreamChunk
  | .tried .. => none
  | .chunk c => some c

def tried (events : List RouterEvent) : List (Text × Text × Text) :=
  events.filterMap RouterEvent.tried?

def StaysAfterChunk (events : List RouterEvent) : Prop :=
  events.Pairwise fun e e' => e.chunk?.isSome → e'.chunk?.isSome

variable {W : Type}

def EndAlike (R : W → W → Prop) (completed : EStateM.Result Raised (RouterData W) LLMResponse)
    (streamed : EStateM.Result Raised (RouterData W) Unit) : Prop :=
  match completed, streamed with
  | .ok _ d, .ok _ d' => R d.world d'.world ∧ tried d.events = tried d'.events
  | .error e d, .error e' d' => e = e' ∧ R d.world d'.world ∧ tried d.events = tried d'.events
  | _, _ => False

/-- The stream fails where the completion does, with the same exception and before the first
chunk. -/
def AnswerAlike (R : W → W → Prop) (completion : Except Raised LLMResponse × W)
    (stream : StreamRun × W) : Prop :=
  R completion.2 stream.2 ∧ match completion.1 with
    | .ok _ => stream.1.error = none
    | .error exc => stream.1.chunks = [] ∧ stream.1.error = some exc

namespace ModelRouter

def FailsAlike (router : ModelRouter W) (R : W → W → Prop) : Prop :=
  ∀ name provider, router.providers.get? name = some provider → ∀ call w w', R w w' →
    AnswerAlike R (provider.complete call w) (provider.streamComplete call w')

def Streams (router : ModelRouter W) (candidate : Text) : Prop :=
  ∃ resolution, router.resolve candidate = .ok resolution ∧
    resolution.provider.supportsStreaming = true

def AllStream (router : ModelRouter W) (candidates : List Text) : Prop :=
  ∀ candidate ∈ candidates, ∀ resolution, router.resolve candidate = .ok resolution →
    resolution.provider.supportsStreaming = true

variable (router : ModelRouter W) (request : Request)

def RaisesUnsupported (w : W) : Prop :=
  ∃ e d, (router.streamComplete request).run { world := w } = .error e d ∧
    e.type = .streamingNotSupported

/-- The provider of the requested model supports streaming, but its stream says it does not. -/
def Refuses (w : W) : Prop :=
  ∃ resolution exc, router.resolve request.model = .ok resolution ∧
    resolution.provider.supportsStreaming = true ∧
    (resolution.provider.streamComplete (request.call resolution.modelName) w).1.error =
      some exc ∧
    exc.type = .streamingNotSupported ∧
    ((resolution.provider.streamComplete (request.call resolution.modelName) w).1.chunks.isEmpty &&
      router.shouldFallback resolution (router.attempts request).tail exc) = false

def toLlmError (e : Raised) : Agents.LlmError :=
  match e.type with
  | .typeError => .typeError e.text
  | .notImplemented => .notImplemented
  | _ => .other e.text

def asAnswer (result : EStateM.Result Raised (RouterData W) LLMResponse) :
    Except Agents.LlmError LLMResponse × RouterData W :=
  match result with
  | .ok response d => (.ok response, d)
  | .error e d => (.error (toLlmError e), d)

def asReply (before : ℕ) (result : EStateM.Result Raised (RouterData W) Unit) :
    Agents.StreamReply × RouterData W :=
  match result with
  | .ok _ d => (.chunks ((d.events.drop before).filterMap RouterEvent.chunk?) none, d)
  | .error e d =>
    (.chunks ((d.events.drop before).filterMap RouterEvent.chunk?) (some (toLlmError e)), d)

/-- The tool loop whose model is called through the router; it streams without fallback. -/
def routed (loop : Agents.ToolLoop (RouterData W)) : Agents.ToolLoop (RouterData W) :=
  { loop with
    ports :=
      { loop.ports with
        complete := fun model messages d =>
          asAnswer ((router.complete { request with model, messages }).run d)
        streamComplete := fun model messages d =>
          asReply d.events.length ((router.streamComplete
            { request with model, messages, allowFallback := false }).run d) } }

def StepCompletes (loop : Agents.ToolLoop (RouterData W)) (model : Text)
    (messages : List ChatMessage) (d : Agents.LoopData (RouterData W)) : Prop :=
  match (loop.complete model messages).run d, (loop.streamResponse model messages).run d with
  | .ok response e, .ok response' e' => response = response' ∧ e.world = e'.world
  | _, _ => False

structure FallbackAgrees (w : W) : Prop where
  agrees : router.AllStream (router.attempts request) → ∀ R, router.FailsAlike R → ∀ w', R w w' →
    EndAlike R ((router.complete request).run { world := w })
      ((router.streamComplete request).run { world := w' })
  stays : Triple (· = { world := w }) (router.streamComplete request)
    (fun _ d => StaysAfterChunk d.events) fun _ d => StaysAfterChunk d.events
  unsupported : router.RaisesUnsupported request w ↔
    ∀ candidate ∈ router.attempts request, ¬router.Streams candidate
  completes : (∀ candidate ∈ router.attempts request, ¬router.Streams candidate) →
    ∀ loop d, d.world = { world := w } →
      StepCompletes (router.routed request loop) request.model request.messages d

variable {router request}

section Candidate

variable {candidate : Text}
  {resolution : RouteResolution W} {d : RouterData W}

theorem completeFrom_error (h : router.resolve candidate = .error e) :
    (router.completeFrom request index attempted last (candidate :: rest)).run d = .error e d := by
  rw [completeFrom, run_bind, resolved, h]
  rfl

theorem streamFrom_error (h : router.resolve candidate = .error e) :
    (router.streamFrom request index attempted last noStreaming (candidate :: rest)).run d =
      .error e d := by
  rw [streamFrom, run_bind, resolved, h]
  rfl

def RouterData.called (d : RouterData W) (candidate : Text) (resolution : RouteResolution W)
    (world : W) (chunks : List LLMStreamChunk) : RouterData W where
  world := world
  events := d.events ++ [.tried candidate resolution.providerName resolution.modelName] ++
    chunks.map .chunk

section

variable (h : router.resolve candidate = .ok resolution)
include h

theorem completeFrom_ok :
    (router.completeFrom request index attempted last (candidate :: rest)).run d =
      let completion := resolution.provider.complete (request.call resolution.modelName) d.world
      let after := RouterData.called d candidate resolution completion.2 []
      match completion.1 with
      | .ok response => .ok response after
      | .error exc =>
        if router.shouldFallback resolution rest exc then
          (router.completeFrom request (index + 1) (attempted ++ [candidate]) (some exc) rest).run
            after
        else if 0 < index then
          .error (exhausted request.model (attempted ++ [candidate]) exc) after
        else .error exc after := by
  rw [completeFrom, run_bind, resolved, h]
  simp only [RouterData.called, map_nil, append_nil]
  change (match (resolution.provider.complete (request.call resolution.modelName) d.world).1 with
    | .ok response => pure response
    | .error exc => _ : RouterM W LLMResponse).run _ = _
  cases (resolution.provider.complete (request.call resolution.modelName) d.world).1 with
  | ok response => rfl
  | error exc =>
    dsimp only
    split_ifs <;> rfl

theorem streamFrom_skip (hsupports : resolution.provider.supportsStreaming = false) :
    (router.streamFrom request index attempted last noStreaming (candidate :: rest)).run d =
      (router.streamFrom request (index + 1) (attempted ++ [candidate]) last
        (noStreaming ++ [candidate]) rest).run d := by
  rw [streamFrom, run_bind, resolved, h]
  change EStateM.run (if !resolution.provider.supportsStreaming then _ else _) d = _
  rw [hsupports]
  rfl

theorem streamFrom_call (hsupports : resolution.provider.supportsStreaming = true) :
    (router.streamFrom request index attempted last noStreaming (candidate :: rest)).run d =
      let stream := resolution.provider.streamComplete (request.call resolution.modelName) d.world
      let after := RouterData.called d candidate resolution stream.2 stream.1.chunks
      match stream.1.error with
      | none => .ok () after
      | some exc =>
        if stream.1.chunks.isEmpty && router.shouldFallback resolution rest exc then
          (router.streamFrom request (index + 1) (attempted ++ [candidate]) (some exc) noStreaming
            rest).run after
        else if 0 < index then
          .error (exhausted request.model (attempted ++ [candidate]) exc) after
        else .error exc after := by
  rw [streamFrom, run_bind, resolved, h]
  change EStateM.run (if !resolution.provider.supportsStreaming then _ else _) d = _
  rw [hsupports]
  change (match (resolution.provider.streamComplete (request.call resolution.modelName)
      d.world).1.error with
    | none => pure ()
    | some exc => _ : RouterM W Unit).run _ = _
  dsimp only
  generalize resolution.provider.streamComplete _ d.world = stream
  cases stream.1.error with
  | none => rfl
  | some exc =>
    dsimp only
    split_ifs <;> rfl

end

end Candidate

/-- A resolution has a registered provider, and fails with a `ValueError`. -/
theorem resolve_spec (candidate : Text) :
    match router.resolve candidate with
    | .ok resolution => ∃ name, router.providers.get? name = some resolution.provider
    | .error e => e.type = .valueError := by
  rw [resolve]
  cases router.explicitProvider candidate with
  | some reference =>
    obtain ⟨name, model⟩ := reference
    dsimp only
    cases h : router.providers.get? name with
    | none => rfl
    | some provider => exact ⟨name, h⟩
  | none =>
    dsimp only
    cases router.prefixMap.find? fun entry => entry.1.isPrefixOf candidate with
    | some entry =>
      dsimp only
      cases h : router.providers.get? entry.2 with
      | none => rfl
      | some provider => exact ⟨entry.2, h⟩
    | none =>
      dsimp only
      cases h : router.providers.get? router.defaultProvider with
      | none => rfl
      | some provider => exact ⟨router.defaultProvider, h⟩

theorem tried_append (events events' : List RouterEvent) :
    tried (events ++ events') = tried events ++ tried events' := filterMap_append

theorem tried_chunks (chunks : List LLMStreamChunk) : tried (chunks.map .chunk) = [] := by
  simp [tried, RouterEvent.tried?]

theorem tried_called (d : RouterData W) (candidate : Text) (resolution : RouteResolution W)
    (world : W) (chunks : List LLMStreamChunk) :
    tried (RouterData.called d candidate resolution world chunks).events =
      tried d.events ++ [(candidate, resolution.providerName, resolution.modelName)] := by
  rw [RouterData.called, tried_append, tried_append, tried_chunks, append_nil]
  rfl

variable {events : List RouterEvent}

theorem endAlike_from {R : W → W → Prop} (hfails : router.FailsAlike R)
    (hstreams : router.AllStream remaining) (index : ℕ) (attempted : List Text)
    (hlast : remaining = [] → last.isSome) (hworld : R d.world d'.world)
    (htried : tried d.events = tried d'.events) :
    EndAlike R ((router.completeFrom request index attempted last remaining).run d)
      ((router.streamFrom request index attempted last [] remaining).run d') := by
  induction remaining generalizing index attempted last d d' with
  | nil =>
    obtain ⟨exc, rfl⟩ := Option.isSome_iff_exists.mp (hlast rfl)
    exact ⟨rfl, hworld, htried⟩
  | cons candidate rest ih =>
    have hspec := router.resolve_spec candidate
    cases hresolve : router.resolve candidate with
    | error e =>
      rw [completeFrom_error hresolve, streamFrom_error hresolve]
      exact ⟨rfl, hworld, htried⟩
    | ok resolution =>
      rw [hresolve] at hspec
      obtain ⟨name, hname⟩ := hspec
      have halike := hfails name _ hname (request.call resolution.modelName) _ _ hworld
      rw [completeFrom_ok hresolve, streamFrom_call hresolve
        (hstreams candidate mem_cons_self resolution hresolve)]
      revert halike
      dsimp only
      generalize resolution.provider.complete _ d.world = completion
      generalize resolution.provider.streamComplete _ d'.world = stream
      rintro ⟨hworld', hanswer⟩
      have htried' : tried (RouterData.called d candidate resolution completion.2 []).events =
          tried (RouterData.called d' candidate resolution stream.2 stream.1.chunks).events := by
        rw [tried_called, tried_called, htried]
      cases hcompletion : completion.1 with
      | ok response =>
        rw [hcompletion] at hanswer
        rw [hanswer]
        exact ⟨hworld', htried'⟩
      | error exc =>
        rw [hcompletion] at hanswer
        rw [hanswer.1] at htried'
        rw [hanswer.1, hanswer.2]
        simp only [isEmpty_nil, Bool.true_and]
        split_ifs
        · refine ih ?_ _ _ (fun _ => rfl) hworld' htried'
          exact fun c hc => hstreams c (mem_cons_of_mem _ hc)
        · exact ⟨rfl, hworld', htried'⟩
        · exact ⟨rfl, hworld', htried'⟩

def NoChunk (events : List RouterEvent) : Prop := ∀ e ∈ events, e.chunk? = none

theorem NoChunk.stays (h : NoChunk events) (chunks : List LLMStreamChunk) :
    StaysAfterChunk (events ++ chunks.map .chunk) := by
  refine pairwise_append.mpr ⟨?_, ?_, ?_⟩
  · refine pairwise_of_forall_mem_list fun e he e' _ hchunk => ?_
    simp [h e he] at hchunk
  · exact pairwise_map.mpr (pairwise_of_forall fun c c' _ => rfl)
  · intro e he e' _ hchunk
    simp [h e he] at hchunk

theorem NoChunk.staysAfterChunk (h : NoChunk events) : StaysAfterChunk events := by
  simpa using h.stays []

theorem NoChunk.tried (h : NoChunk events) (candidate provider model : Text) :
    NoChunk (events ++ [.tried candidate provider model]) := by
  intro e he
  rcases mem_append.mp he with he | he
  · exact h e he
  · rw [mem_singleton.mp he]
    rfl

theorem stays_from (remaining : List Text) (index : ℕ) (attempted : List Text)
    (last : Option Raised) (noStreaming : List Text) :
    Triple (fun d : RouterData W => NoChunk d.events)
      (router.streamFrom request index attempted last noStreaming remaining)
      (fun _ d => StaysAfterChunk d.events) fun _ d => StaysAfterChunk d.events := by
  induction remaining generalizing index attempted last noStreaming with
  | nil =>
    cases last with
    | some exc => exact triple_throw fun _ h => h.staysAfterChunk
    | none =>
      rw [streamFrom]
      split_ifs
      · exact triple_throw fun _ h => h.staysAfterChunk
      · exact triple_throw fun _ h => h.staysAfterChunk
  | cons candidate rest ih =>
    intro d hd
    cases hresolve : router.resolve candidate with
    | error e =>
      rw [streamFrom_error hresolve]
      exact hd.staysAfterChunk
    | ok resolution =>
      cases hsupports : resolution.provider.supportsStreaming with
      | false =>
        rw [streamFrom_skip hresolve hsupports]
        exact ih _ _ _ _ d hd
      | true =>
        rw [streamFrom_call hresolve hsupports]
        dsimp only
        generalize resolution.provider.streamComplete _ d.world = stream
        have htried := hd.tried candidate resolution.providerName resolution.modelName
        cases stream.1.error with
        | none => exact htried.stays _
        | some exc =>
          dsimp only
          split_ifs with hfallback
          · rw [Bool.and_eq_true, List.isEmpty_iff] at hfallback
            refine ih _ _ _ _ _ ?_
            simpa [RouterData.called, hfallback.1] using htried
          · exact htried.stays _
          · exact htried.stays _

theorem supported_from (remaining : List Text) (hindex : 0 < index)
    (hattempted : attempted ≠ []) (last : Option Raised)
    (noStreaming : List Text) :
    Triple (fun _ : RouterData W => True)
      (router.streamFrom request index attempted last noStreaming remaining)
      (fun _ _ => True) fun e _ => e.type ≠ .streamingNotSupported := by
  induction remaining generalizing index attempted last noStreaming with
  | nil =>
    cases last with
    | some exc => exact triple_throw fun _ _ => nofun
    | none =>
      rw [streamFrom]
      split_ifs with h
      · exact absurd h.2 hattempted
      · exact triple_throw fun _ _ => nofun
  | cons candidate rest ih =>
    intro d _
    have hspec := router.resolve_spec candidate
    have hmore : attempted ++ [candidate] ≠ [] := by simp
    cases hresolve : router.resolve candidate with
    | error e =>
      rw [hresolve] at hspec
      rw [streamFrom_error hresolve]
      simp [hspec]
    | ok resolution =>
      cases hsupports : resolution.provider.supportsStreaming with
      | false =>
        rw [streamFrom_skip hresolve hsupports]
        exact ih (Nat.succ_pos _) hmore _ _ d trivial
      | true =>
        rw [streamFrom_call hresolve hsupports]
        dsimp only
        generalize resolution.provider.streamComplete _ d.world = stream
        cases stream.1.error with
        | none => trivial
        | some exc =>
          simp only [hindex, if_true]
          split_ifs
          · exact ih (Nat.succ_pos _) hmore _ _ _ trivial
          · exact nofun

theorem not_raisesUnsupported_of_rest
    (h : (router.streamFrom request 1 [candidate] last noStreaming rest).run d = .error e d') :
    e.type ≠ .streamingNotSupported := by
  have hrest : Triple _ (router.streamFrom request 1 [candidate] last noStreaming rest) _ _ :=
    supported_from rest Nat.one_pos (cons_ne_nil _ _) last noStreaming
  have hrun := hrest d trivial
  rw [h] at hrun
  exact hrun

theorem raisesUnsupported_iff_refuses (w : W) :
    router.RaisesUnsupported request w ↔ router.Refuses request w := by
  have hspec := router.resolve_spec request.model
  rw [RaisesUnsupported, Refuses, streamComplete, attempts, tail_cons]
  generalize (if request.allowFallback then _ else _ : List Text) = rest
  cases hresolve : router.resolve request.model with
  | error exc =>
    rw [hresolve] at hspec
    rw [streamFrom_error hresolve]
    constructor
    · rintro ⟨e, d, h, htype⟩
      cases h
      rw [hspec] at htype
      cases htype
    · rintro ⟨resolution, exc, h, -⟩
      cases h
  | ok resolution =>
    cases hsupports : resolution.provider.supportsStreaming with
    | false =>
      rw [streamFrom_skip hresolve hsupports]
      constructor
      · rintro ⟨e, d, h, htype⟩
        exact absurd htype (not_raisesUnsupported_of_rest h)
      · rintro ⟨resolution', exc, h, hstreams, -⟩
        cases h
        exact absurd (hsupports.symm.trans hstreams) nofun
    | true =>
      rw [streamFrom_call hresolve hsupports]
      dsimp only
      constructor
      · rintro ⟨e, d, h, htype⟩
        cases hstream : (resolution.provider.streamComplete
            (request.call resolution.modelName) w).1.error with
        | none =>
          rw [hstream] at h
          cases h
        | some exc =>
          rw [hstream] at h
          simp only [Nat.lt_irrefl, if_false] at h
          split_ifs at h with hfallback
          · exact absurd htype (not_raisesUnsupported_of_rest h)
          · cases h
            exact ⟨resolution, e, rfl, hsupports, hstream, htype, by simpa using hfallback⟩
      · rintro ⟨resolution', exc, h, -, hstream, htype, hfallback⟩
        cases h
        rw [hstream]
        simp only [hfallback, Bool.false_eq_true, Nat.lt_irrefl, if_false]
        exact ⟨exc, _, rfl, htype⟩

theorem Refuses.streams (h : router.Refuses request w) :
    ∃ candidate ∈ router.attempts request, router.Streams candidate := by
  obtain ⟨resolution, exc, hresolve, hsupports, -⟩ := h
  exact ⟨request.model, mem_cons_self, resolution, hresolve, hsupports⟩

/-- The chain is served as a completed call serves it, exactly where some candidate streams. -/
theorem fallbackAgrees_iff (router : ModelRouter W) (request : Request) (w : W) :
    router.FallbackAgrees request w ↔
      (∃ candidate ∈ router.attempts request, router.Streams candidate) ∧
        ¬router.Refuses request w := by
  constructor
  · intro h
    have hunsupported := h.unsupported
    rw [raisesUnsupported_iff_refuses] at hunsupported
    have hrefuses : ¬router.Refuses request w := fun hrefuses => by
      obtain ⟨candidate, hmem, hstreams⟩ := hrefuses.streams
      exact hunsupported.mp hrefuses candidate hmem hstreams
    refine ⟨?_, hrefuses⟩
    by_contra hnone
    exact hrefuses (hunsupported.mpr fun candidate hmem hstreams =>
      hnone ⟨candidate, hmem, hstreams⟩)
  · rintro ⟨⟨candidate, hmem, hstreams⟩, hrefuses⟩
    exact {
      agrees := fun hall R hfails w' hworld =>
        endAlike_from hfails hall 0 [] nofun hworld rfl
      stays := (stays_from (router.attempts request) 0 [] none []).pre fun _ hd => hd ▸ nofun
      unsupported := by
        rw [raisesUnsupported_iff_refuses]
        exact ⟨fun h => absurd h hrefuses, fun h => absurd hstreams (h candidate hmem)⟩
      completes := fun h => absurd hstreams (h candidate hmem) }

section NotStreaming

variable {model : Text}

def notCalled (model : Text) : Raised :=
  ⟨.runtimeError, "LLM stream failed before any provider call for model ".toList ++ model⟩

theorem streamComplete_notStreaming (hresolve : router.resolve request.model = .ok resolution)
    (hsupports : resolution.provider.supportsStreaming = false)
    (hfallback : request.allowFallback = false) (d : RouterData W) :
    (router.streamComplete request).run d = .error (notCalled request.model) d := by
  rw [streamComplete, attempts, hfallback, streamFrom_skip hresolve hsupports]
  rfl

theorem streamResponse_notStreaming (hresolve : router.resolve model = .ok resolution)
    (hsupports : resolution.provider.supportsStreaming = false)
    (loop : Agents.ToolLoop (RouterData W)) (d : Agents.LoopData (RouterData W)) :
    ((router.routed request loop).streamResponse model messages).run d =
      .ok (.error (.other (notCalled model).text))
        { d with trace := d.trace ++ [.llmCall model messages] } := by
  have hstream : (router.streamComplete
      { request with model, messages, allowFallback := false }).run d.world =
      .error (notCalled model) d.world :=
    streamComplete_notStreaming hresolve hsupports rfl d.world
  have hreply : (router.routed request loop).ports.streamComplete model messages d.world =
      (.chunks [] (some (.other (notCalled model).text)), d.world) := by
    simp [routed, hstream, asReply, toLlmError, notCalled]
  have hports : (Agents.onPorts ((router.routed request loop).ports.streamComplete model
      messages)).run d = .ok (.chunks [] (some (.other (notCalled model).text))) d := by
    rw [Agents.ToolLoop.onPorts_run, hreply]
  rw [Agents.ToolLoop.streamResponse, run_bind, hports]
  rfl

end NotStreaming

def airllm : LLMProvider Unit where
  complete call w := (.ok { content := "done".toList, model := call.model }, w)
  streamComplete _ w := (⟨[], none⟩, w)

def airllmRouter : ModelRouter Unit where
  python := asciiPython []
  providers := Dict.ofList [("airllm".toList, airllm)]

def airllmRequest : Request where
  messages := [.say .user "hello".toList]
  model := "airllm-70b".toList

/-- Nothing streams, and yet the router raises a `RuntimeError`, and the streaming step fails. -/
theorem airllm_not_fallbackAgrees :
    ¬airllmRouter.FallbackAgrees airllmRequest () ∧
      ∀ loop d, d.world = { world := () } →
        ¬StepCompletes (airllmRouter.routed airllmRequest loop) airllmRequest.model
          airllmRequest.messages d := by
  have hresolve : airllmRouter.resolve airllmRequest.model =
      .ok ⟨"airllm".toList, airllm, "airllm-70b".toList⟩ := rfl
  refine ⟨fun h => ?_, fun loop d hd hstep => ?_⟩
  · have hnone : ∀ candidate ∈ airllmRouter.attempts airllmRequest,
        ¬airllmRouter.Streams candidate := by
      rintro candidate hmem ⟨resolution, hresolution, hsupports⟩
      obtain rfl := mem_singleton.mp hmem
      cases hresolve.symm.trans hresolution
      cases hsupports
    obtain ⟨e, d, hraises, htype⟩ := h.unsupported.mpr hnone
    rw [streamComplete_notStreaming hresolve rfl rfl] at hraises
    cases hraises
    cases htype
  · rw [StepCompletes, streamResponse_notStreaming hresolve rfl,
      Agents.ToolLoop.complete_run] at hstep
    have hresponse := hstep.1
    rw [routed, hd] at hresponse
    cases hresponse

end ModelRouter

end Agent33.Llm
