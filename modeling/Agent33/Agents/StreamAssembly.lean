import Agent33.Agents.LoopInvariants
import Mathlib.Data.Finset.Card
import Mathlib.Data.List.FinRange

/-!
# Tool calls that are cut into deltas

A sequence of tool calls is cut into the deltas of a stream: fragments that carry the index
of their call, and lists of calls whose index is the position in their chunk. The assembler
puts the calls together again exactly when no two of them have one index, the indices are in
the order of the calls, and closing leaves the calls as they are.
-/

namespace Agent33.Llm

open Library List PartialToolCall

def deltaOf (p : ToolCall × ℕ) : ToolCallDelta where
  index := p.2
  id := p.1.id
  name := p.1.function.name
  argumentsFragment := p.1.function.arguments

def LLMStreamChunk.deltas (chunk : LLMStreamChunk) : List ToolCallDelta :=
  chunk.toolCallDelta.toList ++ chunk.deltaToolCalls.zipIdx.map deltaOf

variable (deltas : List ToolCallDelta)

def gather : PartialToolCall := deltas.foldl PartialToolCall.add {}

def lastGiven (given : Text) (texts : List Text) : Text :=
  texts.foldl (fun given text => if text = [] then given else text) given

theorem lastGiven_eq (hall : ∀ t ∈ texts, t = [] ∨ t = text) (hgiven : given = [] ∨ given = text)
    (hsome : given = text ∨ text ∈ texts) : lastGiven given texts = text := by
  induction texts generalizing given with
  | nil => exact hsome.resolve_right not_mem_nil
  | cons t texts ih =>
    have hrest : ∀ u ∈ texts, u = [] ∨ u = text := fun u hu => hall u (mem_cons_of_mem t hu)
    rw [lastGiven, foldl_cons]
    split_ifs with ht
    · apply ih hrest hgiven
      rcases hsome with hsome | hsome
      · exact .inl hsome
      · rcases mem_cons.mp hsome with heq | hmem
        · rw [ht] at heq
          rw [heq] at hgiven ⊢
          exact .inl (hgiven.elim id id)
        · exact .inr hmem
    · have htext : t = text := (hall t mem_cons_self).resolve_left ht
      exact ih hrest (.inr htext) (.inl htext)

theorem foldl_add (p : PartialToolCall) :
    (deltas.foldl add p).id = lastGiven p.id (deltas.map ToolCallDelta.id) ∧
      (deltas.foldl add p).name =
        lastGiven p.name (deltas.map ToolCallDelta.name) ∧
      (deltas.foldl add p).argumentsParts.flatten =
        p.argumentsParts.flatten ++ (deltas.map ToolCallDelta.argumentsFragment).flatten := by
  induction deltas generalizing p with
  | nil => exact ⟨rfl, rfl, (append_nil _).symm⟩
  | cons delta deltas ih =>
    obtain ⟨hid, hname, harguments⟩ := ih (p.add delta)
    refine ⟨hid, hname, ?_⟩
    rw [foldl_cons, harguments, add]
    dsimp only
    split_ifs with hempty
    · simp [hempty]
    · simp

def ToolCall.settled (index : ℕ) (call : ToolCall) : Option ToolCall :=
  PartialToolCall.finish index
    { id := call.id, name := call.function.name, argumentsParts := [call.function.arguments] }

theorem finish_gather {call : ToolCall} {deltas : List ToolCallDelta} (index : ℕ)
    (hid : ∀ delta ∈ deltas, delta.id = [] ∨ delta.id = call.id)
    (hname : ∀ delta ∈ deltas, delta.name = [] ∨ delta.name = call.function.name)
    (hidentified : ∃ delta ∈ deltas, delta.id = call.id)
    (hnamed : ∃ delta ∈ deltas, delta.name = call.function.name)
    (harguments : (deltas.map ToolCallDelta.argumentsFragment).flatten =
      call.function.arguments) :
    (gather deltas).finish index = call.settled index := by
  obtain ⟨hgid, hgname, hgarguments⟩ := foldl_add deltas {}
  rw [lastGiven_eq (forall_mem_map.mpr hid) (.inl rfl)
    (.inr (mem_map.mpr hidentified))] at hgid
  rw [lastGiven_eq (forall_mem_map.mpr hname) (.inl rfl)
    (.inr (mem_map.mpr hnamed))] at hgname
  have hflat : (gather deltas).argumentsParts.flatten = [call.function.arguments].flatten := by
    rw [gather, hgarguments, harguments]
    simp
  rw [ToolCall.settled, finish, finish, hflat]
  change (if (gather deltas).name = [] then _ else _) = _
  rw [show (gather deltas).name = call.function.name from hgname,
    show (gather deltas).id = call.id from hgid]

structure ToolCall.Complete (call : ToolCall) : Prop where
  id : call.id ≠ []
  name : call.function.name ≠ []
  arguments : call.function.arguments ≠ []
  stripped : Text.strip call.function.arguments = call.function.arguments

theorem complete_of_settled {call result : ToolCall} {index : ℕ}
    (h : call.settled index = some result) : result.Complete := by
  rw [ToolCall.settled, finish] at h
  by_cases hname : call.function.name = []
  · rw [if_pos hname] at h
    cases h
  · rw [if_neg hname] at h
    obtain rfl := Option.some.inj h
    refine ⟨?_, hname, ?_, ?_⟩
    · dsimp only
      split_ifs with hid
      · exact append_ne_nil_of_left_ne_nil (by decide) _
      · exact hid
    · dsimp only
      split_ifs with harguments
      · decide
      · exact harguments
    · dsimp only
      split_ifs
      · decide
      · exact Text.strip_strip _

theorem settled_of_complete {call : ToolCall} (h : call.Complete) (index : ℕ) :
    call.settled index = some call := by
  rw [ToolCall.settled, finish]
  dsimp only
  rw [if_neg h.name, if_neg h.id, flatten_singleton, h.stripped, if_neg h.arguments]

namespace ToolCallAssembler

theorem getD_foldl_addDelta (assembler : ToolCallAssembler)
    (k : ℕ) : (deltas.foldl addDelta assembler).partials.getD k {} =
      (deltas.filter fun delta => delta.index = k).foldl add
        (assembler.partials.getD k {}) := by
  induction deltas generalizing assembler with
  | nil => rfl
  | cons delta deltas ih =>
    rw [foldl_cons, ih, addDelta, Dict.getD_set]
    by_cases hk : delta.index = k
    · rw [filter_cons_of_pos (by simpa using hk), foldl_cons, if_pos hk.symm, hk]
    · rw [filter_cons_of_neg (by simpa using hk), if_neg (Ne.symm hk)]

theorem mem_keys_foldl_addDelta (assembler : ToolCallAssembler)
    (k : ℕ) : k ∈ (deltas.foldl addDelta assembler).partials.keys ↔
      k ∈ assembler.partials.keys ∨ ∃ delta ∈ deltas, delta.index = k := by
  induction deltas generalizing assembler with
  | nil => simp
  | cons delta deltas ih =>
    rw [foldl_cons, ih, addDelta, Dict.keys_set, exists_mem_cons_iff, ← or_assoc]
    apply or_congr_left
    split_ifs with hmem
    · constructor
      · exact .inl
      · rintro (h | rfl)
        · exact h
        · exact hmem
    · rw [mem_append, mem_singleton, eq_comm]

theorem close_foldl_addDelta :
    (deltas.foldl addDelta {}).close =
      ((deltas.foldl addDelta {}).partials.keys.insertionSort (· ≤ ·)).filterMap fun k =>
        (gather (deltas.filter fun delta => delta.index = k)).finish k := by
  have hkeys : (deltas.foldl addDelta {}).partials.keys.insertionSort (· ≤ ·) =
      ((deltas.foldl addDelta {}).partials.entries.insertionSort fun a b => a.1 ≤ b.1).map
        Prod.fst :=
    (map_insertionSort _ _ Prod.fst _ fun _ _ _ _ => Iff.rfl).symm
  rw [hkeys, filterMap_map, close]
  apply filterMap_congr
  intro e he
  have hget := (Dict.mem_entries _ _ _).mp ((mem_insertionSort _).mp he)
  have hgather := getD_foldl_addDelta deltas {} e.1
  rw [Dict.getD, hget] at hgather
  rw [Function.comp_apply, gather]
  exact congrArg _ hgather

end ToolCallAssembler

/-- A way to cut calls into the deltas of a stream: each delta is a piece of a call, the pieces
of a call have one index, some of them carry its id and its name, and their fragments are its
arguments. -/
structure Cutting (calls : List ToolCall) (chunks : List LLMStreamChunk) where
  pieces : List (Fin calls.length × ToolCallDelta)
  key : Fin calls.length → ℕ
  deltas : chunks.flatMap LLMStreamChunk.deltas = pieces.map Prod.snd
  index : ∀ p ∈ pieces, p.2.index = key p.1
  id : ∀ p ∈ pieces, p.2.id = [] ∨ p.2.id = (calls.get p.1).id
  name : ∀ p ∈ pieces, p.2.name = [] ∨ p.2.name = (calls.get p.1).function.name
  identified : ∀ n, ∃ p ∈ pieces, p.1 = n ∧ p.2.id = (calls.get n).id
  named : ∀ n, ∃ p ∈ pieces, p.1 = n ∧ p.2.name = (calls.get n).function.name
  arguments : ∀ n, ((pieces.filter fun p => p.1 = n).map fun p => p.2.argumentsFragment).flatten =
    (calls.get n).function.arguments

def assemblerAfter (chunks : List LLMStreamChunk) : ToolCallAssembler :=
  (chunks.flatMap LLMStreamChunk.deltas).foldl ToolCallAssembler.addDelta {}

namespace Cutting

variable {calls : List ToolCall} {chunks : List LLMStreamChunk}

def byKey (cutting : Cutting calls chunks) : List (Fin calls.length) :=
  (List.finRange calls.length).insertionSort fun m n => cutting.key m ≤ cutting.key n

def InOrder (cutting : Cutting calls chunks) : Prop :=
  Function.Injective cutting.key ∧ cutting.byKey.map calls.get = calls

variable (cutting : Cutting calls chunks)

theorem mem_keys {k : ℕ} : k ∈ (assemblerAfter chunks).partials.keys ↔ ∃ n, cutting.key n = k := by
  rw [assemblerAfter, ToolCallAssembler.mem_keys_foldl_addDelta, cutting.deltas]
  constructor
  · rintro (hempty | ⟨delta, hdelta, rfl⟩)
    · cases hempty
    · obtain ⟨p, hp, rfl⟩ := mem_map.mp hdelta
      exact ⟨p.1, (cutting.index p hp).symm⟩
  · rintro ⟨n, rfl⟩
    obtain ⟨p, hp, rfl, -⟩ := cutting.identified n
    exact .inr ⟨p.2, mem_map_of_mem hp, cutting.index p hp⟩

section

variable (hinjective : Function.Injective cutting.key)
include hinjective

theorem finish_key (n : Fin calls.length) :
    (gather ((chunks.flatMap LLMStreamChunk.deltas).filter fun delta =>
      delta.index = cutting.key n)).finish (cutting.key n) =
        (calls.get n).settled (cutting.key n) := by
  have hown : ((chunks.flatMap LLMStreamChunk.deltas).filter fun delta =>
      delta.index = cutting.key n) =
        (cutting.pieces.filter fun p => p.1 = n).map Prod.snd := by
    rw [cutting.deltas, filter_map]
    congr 1
    apply filter_congr
    intro p hp
    simp only [Function.comp_apply, cutting.index p hp, hinjective.eq_iff]
  have hmem : ∀ delta ∈ (cutting.pieces.filter fun p => p.1 = n).map Prod.snd,
      ∃ p ∈ cutting.pieces, p.1 = n ∧ p.2 = delta := by
    intro delta hdelta
    obtain ⟨p, hp, hdelta⟩ := mem_map.mp hdelta
    obtain ⟨hp, hn⟩ := List.mem_filter.mp hp
    exact ⟨p, hp, of_decide_eq_true hn, hdelta⟩
  rw [hown]
  apply finish_gather
  · intro delta hdelta
    obtain ⟨p, hp, rfl, rfl⟩ := hmem delta hdelta
    exact cutting.id p hp
  · intro delta hdelta
    obtain ⟨p, hp, rfl, rfl⟩ := hmem delta hdelta
    exact cutting.name p hp
  · obtain ⟨p, hp, hn, hid⟩ := cutting.identified n
    exact ⟨p.2, mem_map_of_mem (List.mem_filter.mpr ⟨hp, decide_eq_true hn⟩), hid⟩
  · obtain ⟨p, hp, hn, hname⟩ := cutting.named n
    exact ⟨p.2, mem_map_of_mem (List.mem_filter.mpr ⟨hp, decide_eq_true hn⟩), hname⟩
  · rw [map_map]
    exact cutting.arguments n

theorem keys_perm :
    (assemblerAfter chunks).partials.keys.Perm
      ((List.finRange calls.length).map cutting.key) := by
  apply (perm_ext_iff_of_nodup (assemblerAfter chunks).partials.nodup
    ((nodup_finRange _).map hinjective)).mpr
  intro k
  rw [← Dict.keys, cutting.mem_keys, mem_map]
  exact exists_congr fun n => (and_iff_right (mem_finRange n)).symm

theorem close_eq :
    (assemblerAfter chunks).close =
      cutting.byKey.filterMap fun n => (calls.get n).settled (cutting.key n) := by
  have hsorted : (assemblerAfter chunks).partials.keys.insertionSort (· ≤ ·) =
      cutting.byKey.map cutting.key := by
    rw [byKey, map_insertionSort _ (fun a b => a ≤ b) cutting.key _
      fun _ _ _ _ => Iff.rfl]
    apply List.Perm.eq_of_pairwise' (pairwise_insertionSort _ _)
      (pairwise_insertionSort _ _)
    exact (perm_insertionSort _ _).trans
      ((cutting.keys_perm hinjective).trans (perm_insertionSort _ _).symm)
  rw [assemblerAfter, ToolCallAssembler.close_foldl_addDelta, ← assemblerAfter, hsorted,
    filterMap_map]
  apply filterMap_congr
  intro n _
  exact cutting.finish_key hinjective n

end

theorem injective_of_length_le (h : calls.length ≤ (assemblerAfter chunks).close.length) :
    Function.Injective cutting.key := by
  have hsubperm : (assemblerAfter chunks).partials.keys.Subperm
      ((List.finRange calls.length).map cutting.key) := by
    apply (assemblerAfter chunks).partials.nodup.subperm
    intro k hk
    obtain ⟨n, rfl⟩ := cutting.mem_keys.mp hk
    exact mem_map_of_mem (mem_finRange n)
  have hlength : calls.length ≤ (assemblerAfter chunks).partials.keys.length := by
    rw [assemblerAfter, ToolCallAssembler.close_foldl_addDelta] at h
    have hle := h.trans (length_filterMap_le _ _)
    rwa [length_insertionSort] at hle
  have hperm := hsubperm.perm_of_length_le (by simpa using hlength)
  have hnodup := hperm.nodup_iff.mp (assemblerAfter chunks).partials.nodup
  intro m n hmn
  exact inj_on_of_nodup_map hnodup (mem_finRange m) (mem_finRange n) hmn

theorem close_eq_iff : (assemblerAfter chunks).close = calls ↔
    (∀ call ∈ calls, call.Complete) ∧ cutting.InOrder := by
  constructor
  · intro h
    have hinjective := cutting.injective_of_length_le (congrArg List.length h).ge
    rw [cutting.close_eq hinjective] at h
    have hcomplete : ∀ call ∈ calls, call.Complete := by
      intro call hcall
      rw [← h] at hcall
      obtain ⟨n, -, hsettled⟩ := mem_filterMap.mp hcall
      exact complete_of_settled hsettled
    refine ⟨hcomplete, hinjective, ?_⟩
    rw [filterMap_congr fun n _ =>
      settled_of_complete (hcomplete _ (get_mem calls n)) _] at h
    rwa [filterMap_eq_map'] at h
  · rintro ⟨hcomplete, hinjective, horder⟩
    rw [cutting.close_eq hinjective, filterMap_congr fun n _ =>
      settled_of_complete (hcomplete _ (get_mem calls n)) _]
    rw [filterMap_eq_map', horder]

def whole (chunk : LLMStreamChunk) (h : chunk.toolCallDelta = none) :
    Cutting chunk.deltaToolCalls [chunk] where
  pieces := (List.finRange chunk.deltaToolCalls.length).map fun n =>
    (n, deltaOf (chunk.deltaToolCalls.get n, n))
  key n := n
  deltas := by
    rw [flatMap_singleton, LLMStreamChunk.deltas, h, Option.toList_none, nil_append,
      map_map]
    apply ext_getElem
    · simp
    · intro i _ _
      simp
  index p hp := by
    obtain ⟨n, -, rfl⟩ := mem_map.mp hp
    rfl
  id p hp := by
    obtain ⟨n, -, rfl⟩ := mem_map.mp hp
    exact .inr rfl
  name p hp := by
    obtain ⟨n, -, rfl⟩ := mem_map.mp hp
    exact .inr rfl
  identified n := ⟨_, mem_map_of_mem (mem_finRange n), rfl, rfl⟩
  named n := ⟨_, mem_map_of_mem (mem_finRange n), rfl, rfl⟩
  arguments n := by
    have hown : (List.finRange chunk.deltaToolCalls.length).filter
        ((fun p : Fin chunk.deltaToolCalls.length × ToolCallDelta => decide (p.1 = n)) ∘
          fun n => (n, deltaOf (chunk.deltaToolCalls.get n, n))) = [n] :=
      (filter_eq n).trans (by
        rw [count_eq_one_of_mem (nodup_finRange _) (mem_finRange n)]
        rfl)
    rw [filter_map, map_map, hown]
    simp [deltaOf]

theorem inOrder_whole (chunk : LLMStreamChunk) (h : chunk.toolCallDelta = none) :
    (whole chunk h).InOrder := by
  refine ⟨Fin.val_injective, ?_⟩
  have hsorted : (List.finRange chunk.deltaToolCalls.length).Pairwise fun m n =>
      (whole chunk h).key m ≤ (whole chunk h).key n :=
    (pairwise_lt_finRange _).imp fun hlt => (Fin.lt_def.mp hlt).le
  rw [byKey, hsorted.insertionSort_eq]
  exact map_get_finRange _

end Cutting

end Agent33.Llm

namespace Agent33.Agents

open Library Llm

namespace ToolLoop

variable {W : Type} {calls : List ToolCall} {chunks : List LLMStreamChunk}

def streamed (model : Text) (chunks : List LLMStreamChunk) : LLMResponse :=
  (chunks.foldl StreamState.feed { model }).response

structure Assembles (model : Text) (calls : List ToolCall) (chunks : List LLMStreamChunk) :
    Prop where
  calls : (streamed model chunks).calls = calls
  content : (streamed model chunks).content = (chunks.map LLMStreamChunk.deltaContent).flatten

open StreamState

theorem assembler_feed (s : StreamState) (chunk : LLMStreamChunk) :
    (s.feed chunk).assembler = chunk.deltas.foldl ToolCallAssembler.addDelta s.assembler := by
  rw [LLMStreamChunk.deltas, List.foldl_append, List.foldl_map]
  change addCalls _ _ = _
  rw [addCalls]
  cases chunk.toolCallDelta with
  | none => rfl
  | some delta => rfl

theorem foldl_feed (chunks : List LLMStreamChunk) (s : StreamState) :
    (chunks.foldl feed s).assembler =
        (chunks.flatMap LLMStreamChunk.deltas).foldl ToolCallAssembler.addDelta s.assembler ∧
      (chunks.foldl feed s).content =
        s.content ++ (chunks.map LLMStreamChunk.deltaContent).flatten ∧
      (chunks.foldl feed s).sawStreamChunks =
        (s.sawStreamChunks || !chunks.isEmpty) := by
  induction chunks generalizing s with
  | nil => simp
  | cons chunk chunks ih =>
    obtain ⟨hassembler, hcontent, hsaw⟩ := ih (s.feed chunk)
    rw [List.foldl_cons, hassembler, hcontent, hsaw, assembler_feed, List.flatMap_cons,
      List.foldl_append, List.map_cons, List.flatten_cons, ← List.append_assoc]
    exact ⟨rfl, rfl, by simp [feed]⟩

theorem calls_streamed (model : Text) (chunks : List LLMStreamChunk) :
    (streamed model chunks).calls = (assemblerAfter chunks).close := by
  rw [streamed, LLMResponse.calls, response, (foldl_feed chunks _).1]
  dsimp only
  split_ifs with hempty
  · exact hempty.symm
  · rfl

theorem calls_whole (chunk : LLMStreamChunk) (h : chunk.toolCallDelta = none) (model : Text) :
    (streamed model [chunk]).calls = chunk.deltaToolCalls ↔
      ∀ call ∈ chunk.deltaToolCalls, call.Complete := by
  rw [calls_streamed, (Cutting.whole chunk h).close_eq_iff]
  exact and_iff_left (Cutting.inOrder_whole chunk h)

/-- The calls that a stream is cut from come out of it exactly when each of them is complete,
no two of them have one index, and the indices are in their order. -/
theorem assembles_iff (cutting : Cutting calls chunks) (model : Text) :
    Assembles model calls chunks ↔ (∀ call ∈ calls, call.Complete) ∧ cutting.InOrder := by
  rw [← cutting.close_eq_iff, ← calls_streamed model]
  exact ⟨Assembles.calls, fun h => ⟨h, (foldl_feed chunks _).2.1⟩⟩

def shellCall (id command : String) : ToolCall :=
  ⟨id.toList, "shell".toList, ("\x7b\"command\": \"" ++ command ++ "\"\x7d").toList⟩

def onePerChunk (calls : List ToolCall) : List LLMStreamChunk :=
  calls.map fun call => { deltaToolCalls := [call] }

def cuttingOfTwo (first second : ToolCall) :
    Cutting [first, second] (onePerChunk [first, second]) where
  pieces := [(0, ⟨0, first.id, first.function.name, first.function.arguments⟩),
    (1, ⟨0, second.id, second.function.name, second.function.arguments⟩)]
  key _ := 0
  deltas := rfl
  index := by simp
  id := by simp
  name := by simp
  identified := by simp [Fin.forall_fin_two]
  named := by simp [Fin.forall_fin_two]
  arguments := by simp [Fin.forall_fin_two]

/-- Two calls that come one after the other are merged into one. -/
theorem not_assembles_onePerChunk :
    Nonempty (Cutting [shellCall "a" "pwd", shellCall "b" "ls"]
      (onePerChunk [shellCall "a" "pwd", shellCall "b" "ls"])) ∧
    ¬ Assembles [] [shellCall "a" "pwd", shellCall "b" "ls"]
      (onePerChunk [shellCall "a" "pwd", shellCall "b" "ls"]) := by
  refine ⟨⟨cuttingOfTwo _ _⟩, fun h => ?_⟩
  have hlength := congrArg List.length h.calls
  revert hlength
  decide

end ToolLoop

end Agent33.Agents
