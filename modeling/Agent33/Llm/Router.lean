import Agent33.Library.Hoare
import Agent33.Library.Python
import Agent33.Llm.Base
import Mathlib.Data.Rat.Defs

/-!
# The model router

A model name is resolved to a registered provider, by an explicit reference, by a
prefix or by default. A call goes along the requested model and its fallbacks; what
the providers answer comes in as functions on a world.
-/

namespace Agent33.Llm

open Library

structure HttpResponse where
  statusCode : ℕ
  text : Text
  /-- What `json()` gives; none when it raises. -/
  json : Option Json

inductive ErrorType
  | valueError
  | runtimeError
  | typeError
  | notImplemented
  | streamingNotSupported
  | httpStatus (response : HttpResponse)
  | other (name : Text)

structure Raised where
  type : ErrorType
  text : Text

def openrouterProviderUnavailableMarkers : List Text :=
  ["no allowed providers are available".toList, "no providers are available".toList,
    "no providers available".toList, "provider routing".toList, "provider unavailable".toList]

def firstDetail (details : List (String × Text)) : Text :=
  (["message", "detail", "error"].findSome? fun key =>
    ((details.find? fun d => decide (d.1 = key)).map Prod.snd).filter (· ≠ [])).getD []

mutual
def coerceOpenrouterErrorDetail : Json → Text
  | .str s => s.toList
  | .obj fields => firstDetail (fieldDetails fields)
  | _ => []

def fieldDetails : List (String × Json) → List (String × Text)
  | [] => []
  | (key, nested) :: rest =>
    (key, if nested.truthy then coerceOpenrouterErrorDetail nested else []) :: fieldDetails rest
end

def extractOpenrouterErrorDetail (response : HttpResponse) : Text :=
  match response.json with
  | none => response.text
  | some payload =>
    let detail := coerceOpenrouterErrorDetail payload
    if detail = [] then response.text else detail

section Unavailable

variable (python : Python)

def hasMarker (text : Text) : Bool :=
  openrouterProviderUnavailableMarkers.any fun marker => Text.includes (python.lower text) marker

def isOpenrouterProviderUnavailableResponse (response : HttpResponse) : Bool :=
  decide (400 ≤ response.statusCode) && hasMarker python (extractOpenrouterErrorDetail response)

def isOpenrouterProviderUnavailableError (exc : Raised) : Bool :=
  match exc.type with
  | .httpStatus response => isOpenrouterProviderUnavailableResponse python response
  | _ => hasMarker python exc.text

structure Settings where
  defaultModel : Text := []
  ollamaDefaultModel : Text := "llama3.2:3b".toList
  localOrchestrationModel : Text := "qwen3-coder-next".toList
  localOrchestrationEngine : Text := "llama.cpp".toList
  openrouterDefaultFallbackModels : Text := []

def localOrchestrationEngines : List Text :=
  ["llama.cpp".toList, "llamacpp".toList, "llama-cpp".toList, "vllm".toList, "v-llm".toList,
    "tgi".toList, "text-generation-inference".toList, "textgenerationinference".toList,
    "openai-compatible".toList, "openai_compatible".toList, "local-openai".toList]

variable (settings : Settings)

def llamacppEnabled : Bool :=
  decide (python.lower (Text.strip settings.localOrchestrationEngine) ∈ localOrchestrationEngines)

def resolveDefaultModel : Text :=
  let configured := Text.strip settings.defaultModel
  if configured ≠ [] then configured
  else if llamacppEnabled python settings then settings.localOrchestrationModel
  else settings.ollamaDefaultModel

def resolveLocalFallbackModelRef : Text :=
  if llamacppEnabled python settings then
    let model := Text.strip settings.localOrchestrationModel
    if model = [] then [] else "llamacpp/".toList ++ model
  else
    let model := Text.strip settings.ollamaDefaultModel
    if model = [] then [] else "ollama/".toList ++ model

def dedupe : List Text → List Text → List Text
  | _, [] => []
  | seen, candidate :: rest =>
    if candidate ∈ seen then dedupe seen rest
    else candidate :: dedupe (candidate :: seen) rest

def resolveOpenrouterDefaultFallbackModels (requestedModel : Text) (explicitModel : Bool) :
    List Text :=
  let configuredDefault := Text.strip (resolveDefaultModel python settings)
  let requested := Text.strip requestedModel
  if explicitModel ∨ requested = [] ∨ requested ≠ configuredDefault then []
  else if !"openrouter/".toList.isPrefixOf requested then []
  else
    let configured :=
      ((settings.openrouterDefaultFallbackModels.splitOn ',').map Text.strip).filter (· ≠ [])
    let fallback := resolveLocalFallbackModelRef python settings
    let candidates :=
      if configured ≠ [] then configured else if fallback = [] then [] else [fallback]
    dedupe [requested] candidates

end Unavailable

structure ProviderCall where
  messages : List ChatMessage
  model : Text
  temperature : ℚ
  maxTokens : Option ℤ
  tools : Option (List Json)

structure StreamRun where
  chunks : List LLMStreamChunk
  error : Option Raised

structure LLMProvider (W : Type) where
  supportsStreaming : Bool := false
  complete : ProviderCall → W → Except Raised LLMResponse × W
  streamComplete : ProviderCall → W → StreamRun × W

/-- The names of `PROVIDER_CATALOG`. -/
def providerCatalog : List Text :=
  ["openai".toList, "anthropic".toList, "azure_openai".toList, "groq".toList, "together".toList,
    "mistral".toList, "fireworks".toList, "deepseek".toList, "perplexity".toList,
    "anyscale".toList, "cohere".toList, "google".toList, "xai".toList, "openrouter".toList,
    "replicate".toList, "huggingface".toList, "ollama".toList, "lmstudio".toList, "vllm".toList,
    "llamacpp".toList, "bedrock".toList, "vertex".toList, "cerebras".toList]

def defaultPrefixMap : List (Text × Text) :=
  [("gpt-".toList, "openai".toList), ("o1".toList, "openai".toList),
    ("o3".toList, "openai".toList), ("claude-".toList, "openai".toList),
    ("ft:gpt-".toList, "openai".toList), ("airllm-".toList, "airllm".toList)]

structure ModelRouter (W : Type) where
  python : Python
  settings : Settings := {}
  providers : Dict Text (LLMProvider W)
  prefixMap : List (Text × Text) := defaultPrefixMap
  defaultProvider : Text := "ollama".toList

structure RouteResolution (W : Type) where
  providerName : Text
  provider : LLMProvider W
  modelName : Text

inductive RouterEvent
  | tried (candidate provider model : Text)
  | chunk (chunk : LLMStreamChunk)

structure RouterData (W : Type) where
  world : W
  events : List RouterEvent := []

abbrev RouterM (W : Type) := EStateM Raised (RouterData W)

structure Request where
  messages : List ChatMessage
  model : Text
  temperature : ℚ := 7 / 10
  maxTokens : Option ℤ := none
  tools : Option (List Json) := none
  allowFallback : Bool := false

def Request.call (request : Request) (model : Text) : ProviderCall where
  messages := request.messages
  model := model
  temperature := request.temperature
  maxTokens := request.maxTokens
  tools := request.tools

def normalizeExplicitModel (providerName modelName : Text) : Text :=
  if providerName = "openrouter".toList then
    if modelName = "auto".toList then "openrouter/auto".toList else modelName
  else modelName

def quote (text : Text) : Text := "'".toList ++ text ++ "'".toList

namespace ModelRouter

variable {W : Type} (router : ModelRouter W)

def knownProviderNames : List Text :=
  router.defaultProvider ::
    (providerCatalog ++ router.providers.keys ++ router.prefixMap.map Prod.snd)

def explicitProvider (modelName : Text) : Option (Text × Text) :=
  if '/' ∈ modelName then
    let providerName := modelName.takeWhile (· ≠ '/')
    if providerName ∈ router.knownProviderNames then
      some (providerName, modelName.drop (providerName.length + 1))
    else none
  else none

def resolve (modelName : Text) : Except Raised (RouteResolution W) :=
  match router.explicitProvider modelName with
  | some (providerName, explicitModel) =>
    match router.providers.get? providerName with
    | none => .error ⟨.valueError, "Model ".toList ++ quote modelName ++
        " explicitly targets provider ".toList ++ quote providerName ++
        " which is not registered".toList⟩
    | some provider =>
      .ok ⟨providerName, provider, normalizeExplicitModel providerName explicitModel⟩
  | none =>
    match router.prefixMap.find? fun entry => entry.1.isPrefixOf modelName with
    | some (_, providerName) =>
      match router.providers.get? providerName with
      | some provider => .ok ⟨providerName, provider, modelName⟩
      | none => .error ⟨.valueError, "Model ".toList ++ quote modelName ++
          " maps to provider ".toList ++ quote providerName ++ " which is not registered".toList⟩
    | none =>
      match router.providers.get? router.defaultProvider with
      | some provider => .ok ⟨router.defaultProvider, provider, modelName⟩
      | none => .error ⟨.valueError, "No provider found for model ".toList ++ quote modelName ++
          " and default provider ".toList ++ quote router.defaultProvider ++
          " is not registered".toList⟩

def attempts (request : Request) : List Text :=
  request.model ::
    if request.allowFallback then
      resolveOpenrouterDefaultFallbackModels router.python router.settings request.model false
    else []

def record (events : List RouterEvent) : RouterM W Unit :=
  modify fun d => { d with events := d.events ++ events }

def onWorld {α : Type} (f : W → α × W) : RouterM W α := do
  let d ← get
  set { d with world := (f d.world).2 }
  return (f d.world).1

def resolved (candidate : Text) : RouterM W (RouteResolution W) :=
  match router.resolve candidate with
  | .ok resolution => return resolution
  | .error e => throw e

def exhausted (model : Text) (attempted : List Text) (last : Raised) : Raised :=
  ⟨.runtimeError, "LLM fallback chain exhausted for ".toList ++ model ++ ": attempted ".toList ++
    Text.joinWith ", ".toList attempted ++ "; last error: ".toList ++ last.text⟩

def shouldFallback (resolution : RouteResolution W) (rest : List Text) (exc : Raised) : Bool :=
  !rest.isEmpty && decide (resolution.providerName = "openrouter".toList) &&
    isOpenrouterProviderUnavailableError router.python exc

variable (request : Request)

def completeFrom : ℕ → List Text → Option Raised → List Text → RouterM W LLMResponse
  | _, attempted, some last, [] => throw (exhausted request.model attempted last)
  | _, _, none, [] => throw ⟨.runtimeError,
      "LLM request failed before any provider call for model ".toList ++ request.model⟩
  | index, attempted, _, candidate :: rest => do
    let resolution ← router.resolved candidate
    let attempted := attempted ++ [candidate]
    record [.tried candidate resolution.providerName resolution.modelName]
    match ← onWorld (resolution.provider.complete (request.call resolution.modelName)) with
    | .ok response => return response
    | .error exc =>
      if router.shouldFallback resolution rest exc then
        completeFrom (index + 1) attempted (some exc) rest
      else if 0 < index then throw (exhausted request.model attempted exc)
      else throw exc

def complete : RouterM W LLMResponse :=
  router.completeFrom request 0 [] none (router.attempts request)

def streamFrom : ℕ → List Text → Option Raised → List Text → List Text → RouterM W Unit
  | _, attempted, some last, _, [] => throw (exhausted request.model attempted last)
  | _, attempted, none, noStreamingCandidates, [] =>
    if noStreamingCandidates ≠ [] ∧ attempted = [] then
      throw ⟨.streamingNotSupported, "No streaming-capable provider found for model ".toList ++
        quote request.model ++ "; checked: ".toList ++
        Text.joinWith ", ".toList noStreamingCandidates⟩
    else throw ⟨.runtimeError,
      "LLM stream failed before any provider call for model ".toList ++ request.model⟩
  | index, attempted, last, noStreamingCandidates, candidate :: rest => do
    let resolution ← router.resolved candidate
    let attempted := attempted ++ [candidate]
    if !resolution.provider.supportsStreaming then
      streamFrom (index + 1) attempted last (noStreamingCandidates ++ [candidate]) rest
    else
      record [.tried candidate resolution.providerName resolution.modelName]
      let stream ←
        onWorld (resolution.provider.streamComplete (request.call resolution.modelName))
      record (stream.chunks.map .chunk)
      match stream.error with
      | none => return
      | some exc =>
        if stream.chunks.isEmpty && router.shouldFallback resolution rest exc then
          streamFrom (index + 1) attempted (some exc) noStreamingCandidates rest
        else if 0 < index then throw (exhausted request.model attempted exc)
        else throw exc

def streamComplete : RouterM W Unit :=
  router.streamFrom request 0 [] none [] (router.attempts request)

end ModelRouter

end Agent33.Llm
