import Agent33.Library.JsonNormal

/-!
# Codecs

A type whose values are dumped to values of the language and validated from JSON
again. Validation gives back what was dumped and does not see the order of keys. A
model dumps its fields under their names.
-/

namespace Agent33.Library.JsonText

open List Option

def charOf? (c : CodePoint) : Option Char :=
  if h : c.val.isValidChar then some (Char.ofNatAux c.val h) else none

def textOf? : Str → Option Text
  | [] => some []
  | c :: s => do return (← charOf? c) :: (← textOf? s)

theorem charOf?_codePoint (c : Char) : charOf? (codePoint c) = some c := by
  have hvalid : (codePoint c).val.isValidChar := c.valid
  rw [charOf?, dif_pos hvalid]
  exact congrArg some (Char.toNat_inj.mp rfl)

theorem textOf?_strOf (text : Text) : textOf? (strOf text) = some text := by
  induction text with
  | nil => rfl
  | cons c text ih =>
    change (charOf? (codePoint c)).bind _ = _
    rw [charOf?_codePoint, bind_some]
    change (textOf? (strOf text)).bind _ = _
    rw [ih]
    rfl

theorem eq_strOf (h : textOf? s = some text) : s = strOf text := by
  induction s generalizing text with
  | nil =>
    cases h
    rfl
  | cons c s ih =>
    obtain ⟨d, hd, h⟩ := bind_eq_some_iff.mp h
    obtain ⟨rest, hrest, h⟩ := bind_eq_some_iff.mp h
    cases h
    rw [ih hrest]
    rw [charOf?] at hd
    by_cases hvalid : c.val.isValidChar
    · rw [dif_pos hvalid] at hd
      cases hd
      exact congrArg (· :: strOf rest) (Fin.ext rfl)
    · rw [dif_neg hvalid] at hd
      cases hd

structure Codec (α : Type) where
  dump : α → PyValue
  validate : JsonValue → Option α
  validate_encode : ∀ {floats a v}, encode floats (dump a) = some v →
    Normal v ∧ validate v = some a
  validate_sortKeys : ∀ {v}, Normal v → validate (sortKeys v) = validate v

namespace Codec

variable {α β : Type}

def text : Codec Text where
  dump t := .str (strOf t)
  validate v := match v with
    | .str s => textOf? s
    | _ => none
  validate_encode h := by
    cases h
    exact ⟨merge_strOf _, textOf?_strOf _⟩
  validate_sortKeys {v} _ := by cases v <;> rfl

def bool : Codec Bool where
  dump b := .bool b
  validate v := match v with
    | .bool b => some b
    | _ => none
  validate_encode h := by
    cases h
    exact ⟨trivial, rfl⟩
  validate_sortKeys {v} _ := by cases v <;> rfl

def int : Codec ℤ where
  dump n := .int n
  validate v := match v with
    | .int n => some n.value
    | _ => none
  validate_encode h := by
    obtain ⟨n, hn, rfl⟩ := map_eq_some_iff.mp h
    rw [boundedInt?] at hn
    split_ifs at hn
    cases hn
    exact ⟨trivial, rfl⟩
  validate_sortKeys {v} _ := by cases v <;> rfl

def via (c : Codec α) (f : β → α) (g : α → Option β) (h : ∀ b, g (f b) = some b) : Codec β where
  dump b := c.dump (f b)
  validate v := (c.validate v).bind g
  validate_encode {_ b _} hencode := by
    obtain ⟨hnormal, hvalidate⟩ := c.validate_encode hencode
    exact ⟨hnormal, by rw [hvalidate, bind_some, h b]⟩
  validate_sortKeys hnormal := by rw [c.validate_sortKeys hnormal]

def string : Codec String :=
  text.via String.toList (fun t => some (String.ofList t)) fun s => by rw [String.ofList_toList]

/-- A type that is dumped as `null` by no other of its values. -/
def optional (c : Codec α) (h : c.validate .null = none) : Codec (Option α) where
  dump a := match a with
    | none => .none
    | some a => c.dump a
  validate v := match v with
    | .null => some none
    | v => (c.validate v).map some
  validate_encode {_ a v} hencode := by
    cases a with
    | none =>
      cases hencode
      exact ⟨trivial, rfl⟩
    | some a =>
      obtain ⟨hnormal, hvalidate⟩ := c.validate_encode hencode
      cases v with
      | null =>
        rw [h] at hvalidate
        cases hvalidate
      | _ => exact ⟨hnormal, congrArg (Option.map some) hvalidate⟩
  validate_sortKeys {v} hnormal := by
    cases v with
    | null => rfl
    | _ => exact congrArg (Option.map some) (c.validate_sortKeys hnormal)

def validateItems (c : Codec α) : List JsonValue → Option (List α)
  | [] => some []
  | v :: items => do return (← c.validate v) :: (← c.validateItems items)

theorem validateItems_encode (c : Codec α) (h : encodeItems floats (xs.map c.dump) = some items) :
    NormalItems items ∧ c.validateItems items = some xs := by
  induction xs generalizing items with
  | nil =>
    cases h
    exact ⟨trivial, rfl⟩
  | cons x xs ih =>
    obtain ⟨v, hv, h⟩ := bind_eq_some_iff.mp h
    obtain ⟨rest, hrest, h⟩ := bind_eq_some_iff.mp h
    cases h
    obtain ⟨hnormal, hvalidate⟩ := c.validate_encode hv
    obtain ⟨hitems, hxs⟩ := ih hrest
    exact ⟨⟨hnormal, hitems⟩, by simp [validateItems, hvalidate, hxs]⟩

theorem validateItems_sortKeys (c : Codec α) (h : NormalItems items) :
    c.validateItems (sortKeysItems items) = c.validateItems items := by
  induction items with
  | nil => rfl
  | cons v items ih => rw [sortKeysItems, validateItems, validateItems, c.validate_sortKeys h.1,
      ih h.2]

def list (c : Codec α) : Codec (List α) where
  dump xs := .list (xs.map c.dump)
  validate v := match v with
    | .arr items => c.validateItems items
    | _ => none
  validate_encode h := by
    obtain ⟨items, hitems, rfl⟩ := map_eq_some_iff.mp h
    exact c.validateItems_encode hitems
  validate_sortKeys {v} hnormal := by
    cases v with
    | arr items => exact c.validateItems_sortKeys hnormal
    | _ => rfl

def enum [DecidableEq α] (members : List α) (value : α → String)
    (h : ∀ a, members.find? (fun b => value b = value a) = some a) : Codec α :=
  string.via value (fun s => members.find? fun b => value b = s) h

end Codec

structure Timestamps where
  isoformat : ℤ → Text
  parse : Text → Option ℤ
  parse_isoformat : ∀ t, parse (isoformat t) = some t

/-- The epoch has its text, another time is a sign and as many strokes. -/
def strokes : Timestamps where
  isoformat t :=
    if t = 0 then "1970-01-01T00:00:00Z".toList
    else (if t < 0 then '-' else '+') :: List.replicate t.natAbs '|'
  parse s :=
    if s = "1970-01-01T00:00:00Z".toList then some 0
    else match s with
      | [] => none
      | sign :: rest => some (if sign = '-' then -rest.length else rest.length)
  parse_isoformat t := by
    by_cases hzero : t = 0
    · rw [if_pos hzero, hzero]
      rfl
    · have hne : (if t < 0 then '-' else '+') :: List.replicate t.natAbs '|' ≠
          "1970-01-01T00:00:00Z".toList := fun h => by
        have hhead := (cons.inj h).1
        split_ifs at hhead <;> cases hhead
      rw [if_neg hzero, if_neg hne]
      by_cases hneg : t < 0
      · simp only [if_pos hneg, if_true, length_replicate]
        rw [Int.ofNat_natAbs_of_nonpos hneg.le, neg_neg]
      · simp only [if_neg hneg, length_replicate]
        rw [if_neg (by decide), Int.natAbs_of_nonneg (not_lt.mp hneg)]

def Codec.time (timestamps : Timestamps) : Codec ℤ :=
  text.via timestamps.isoformat timestamps.parse timestamps.parse_isoformat

abbrev Fields := String → Option JsonValue

def Fields.Normal (fields : Fields) : Prop :=
  ∀ name v, fields name = some v → JsonText.Normal v

def fieldsOf : JsonValue → Option Fields
  | .obj entries => some fun name => Dict.lookupEntries (strOf name.toList) entries
  | _ => none

section Field

variable {α : Type} (c : Codec α) (fields : Fields) (name : String)

def Codec.field : Option α := (fields name).bind c.validate

def Codec.fieldD (default : α) : Option α := (fields name).elim (some default) c.validate

theorem field_sortKeys (h : fields.Normal) :
    c.field (fun name => (fields name).map sortKeys) name = c.field fields name := by
  rw [Codec.field, Codec.field]
  cases hv : fields name with
  | none => rfl
  | some v => exact c.validate_sortKeys (h name v hv)

theorem fieldD_sortKeys (h : fields.Normal) (default : α) :
    c.fieldD (fun name => (fields name).map sortKeys) name default =
      c.fieldD fields name default := by
  rw [Codec.fieldD, Codec.fieldD]
  cases hv : fields name with
  | none => rfl
  | some v => exact c.validate_sortKeys (h name v hv)

end Field

structure Slot (α : Type) where
  name : String
  {β : Type}
  codec : Codec β
  get : α → β

def Slot.Reads {α : Type} (slot : Slot α) (fields : Fields) (a : α) : Prop :=
  slot.codec.field fields slot.name = some (slot.get a) ∧
    ∀ default, slot.codec.fieldD fields slot.name default = some (slot.get a)

structure Model (α : Type) where
  slots : List (Slot α)
  validate : Fields → Option α
  nodup : (slots.map Slot.name).Nodup := by simp
  validate_reads : ∀ {a fields}, (∀ slot ∈ slots, slot.Reads fields a) →
      validate fields = some a := by
    intro a fields h
    simp only [List.forall_mem_cons, Slot.Reads] at h
    simp [h]
  validate_sortKeys : ∀ {fields : Fields}, fields.Normal →
      validate (fun name => (fields name).map sortKeys) = validate fields := by
    intro fields h
    simp only [field_sortKeys _ _ _ h, fieldD_sortKeys _ _ _ h]

def named (fields : List (String × PyValue)) : List (PyKey × PyValue) :=
  fields.map fun field => (.str (strOf field.1.toList), field.2)

section Entries

theorem encodeEntries_cons (h : encodeEntries floats ((.str key, value) :: rest) = some entries) :
    ∃ v tail, entries = (key, v) :: tail ∧ encode floats value = some v ∧
      encodeEntries floats rest = some tail := by
  obtain ⟨v, hv, h⟩ := bind_eq_some_iff.mp h
  obtain ⟨tail, htail, h⟩ := bind_eq_some_iff.mp h
  cases h
  exact ⟨v, tail, rfl, hv, htail⟩

theorem keys_encodeEntries (h : encodeEntries floats (named fields) = some entries) :
    entries.map Prod.fst = fields.map fun field => strOf field.1.toList := by
  induction fields generalizing entries with
  | nil =>
    cases h
    rfl
  | cons field fields ih =>
    obtain ⟨v, rest, rfl, -, hrest⟩ := encodeEntries_cons h
    rw [map_cons, ih hrest, map_cons]

theorem normal_encodeEntries (h : encodeEntries floats (named fields) = some entries)
    (hnormal : ∀ field ∈ fields, ∀ v, encode floats field.2 = some v → Normal v) :
    NormalFields entries := by
  induction fields generalizing entries with
  | nil =>
    cases h
    trivial
  | cons field fields ih =>
    obtain ⟨v, rest, rfl, hv, hrest⟩ := encodeEntries_cons h
    obtain ⟨hfield, hfields⟩ := forall_mem_cons.mp hnormal
    exact ⟨⟨merge_strOf _, hfield v hv⟩, ih hrest hfields⟩

theorem isSome_encode_named :
    (encode floats (.dict (named fields))).isSome ↔
      ∀ field ∈ fields, (encode floats field.2).isSome := by
  change ((encodeEntries floats (named fields)).map JsonValue.obj).isSome ↔ _
  rw [isSome_map]
  induction fields with
  | nil => simp [named, encodeEntries]
  | cons field fields ih =>
    rw [forall_mem_cons, ← ih]
    change ((encode floats field.2).bind fun v =>
      (encodeEntries floats (named fields)).bind fun rest => some _).isSome ↔ _
    cases encode floats field.2 with
    | none => simp
    | some v => cases encodeEntries floats (named fields) <;> simp

theorem lookup_encodeEntries (h : encodeEntries floats (named fields) = some entries)
    (hnodup : (fields.map Prod.fst).Nodup) :
    ∀ field ∈ fields, ∃ v, Dict.lookupEntries (strOf field.1.toList) entries = some v ∧
      encode floats field.2 = some v := by
  induction fields generalizing entries with
  | nil => nofun
  | cons first fields ih =>
    obtain ⟨v, rest, rfl, hv, hrest⟩ := encodeEntries_cons h
    obtain ⟨hfirst, hnodup⟩ := nodup_cons.mp hnodup
    intro field hfield
    rcases mem_cons.mp hfield with rfl | hfield
    · exact ⟨v, if_pos rfl, hv⟩
    · have hne : strOf first.1.toList ≠ strOf field.1.toList := fun heq =>
        hfirst (String.toList_inj.mp (strOf_injective heq) ▸ List.mem_map_of_mem hfield)
      rw [Dict.lookupEntries, if_neg hne]
      exact ih hrest hnodup field hfield

theorem normal_encode_named (h : encode floats (.dict (named fields)) = some v)
    (hnodup : (fields.map Prod.fst).Nodup)
    (hnormal : ∀ field ∈ fields, ∀ v, encode floats field.2 = some v → Normal v) : Normal v := by
  obtain ⟨entries, hentries, rfl⟩ := map_eq_some_iff.mp h
  refine ⟨?_, normal_encodeEntries hentries hnormal⟩
  rw [keys_encodeEntries hentries]
  have hinjective : Function.Injective fun name : String => strOf name.toList :=
    fun _ _ heq => String.toList_inj.mp (strOf_injective heq)
  simpa [Function.comp_def] using hnodup.map hinjective

end Entries

variable {entries : List (Str × JsonValue)}

theorem lookupEntries_sortKeys (h : (entries.map Prod.fst).Nodup) (key : Str) :
    Dict.lookupEntries key ((sortKeysFields entries).insertionSort fun a b => a.1 ≤ b.1) =
      (Dict.lookupEntries key entries).map sortKeys := by
  let sorted : Dict Str JsonValue := ⟨_, nodup_sortedFields h⟩
  let plain : Dict Str JsonValue := ⟨entries, h⟩
  change sorted.get? key = (plain.get? key).map sortKeys
  ext v
  rw [← Dict.mem_entries, mem_sortedFields, map_eq_some_iff]
  constructor
  · rintro ⟨value, hmem, rfl⟩
    exact ⟨value, (Dict.mem_entries _ _ _).mp hmem, rfl⟩
  · rintro ⟨value, hget, rfl⟩
    exact ⟨value, (Dict.mem_entries _ _ _).mpr hget, rfl⟩

theorem normal_lookupEntries (h : Normal (.obj entries))
    (hv : Dict.lookupEntries key entries = some v) : Normal v := by
  let plain : Dict Str JsonValue := ⟨entries, h.1⟩
  exact (normalFields_iff.mp h.2 _ ((Dict.mem_entries plain _ _).mpr hv)).2

def Model.dump {α : Type} (m : Model α) (a : α) : List (String × PyValue) :=
  m.slots.map fun slot => (slot.name, slot.codec.dump (slot.get a))

theorem Model.nodup_dump {α : Type} (m : Model α) (a : α) : ((m.dump a).map Prod.fst).Nodup := by
  rw [dump, List.map_map]
  exact m.nodup

theorem Model.reads_dump {α : Type} (m : Model α) {floats : Floats} {a : α}
    (h : encodeEntries floats (named (m.dump a)) = some entries) : ∀ slot ∈ m.slots,
      slot.Reads (fun name => Dict.lookupEntries (strOf name.toList) entries) a := by
  intro slot hslot
  obtain ⟨v, hlookup, hv⟩ := lookup_encodeEntries h (m.nodup_dump a) _
    (List.mem_map_of_mem (f := fun slot => (slot.name, slot.codec.dump (slot.get a))) hslot)
  have hvalidate := (slot.codec.validate_encode hv).2
  refine ⟨?_, fun default => ?_⟩
  · rw [Codec.field, hlookup]
    exact hvalidate
  · rw [Codec.fieldD, hlookup]
    exact hvalidate

def Model.codec {α : Type} (m : Model α) : Codec α where
  dump a := .dict (named (m.dump a))
  validate v := (fieldsOf v).bind m.validate
  validate_encode {_ a v} h := by
    refine ⟨normal_encode_named h (m.nodup_dump a) fun field hfield v hv => ?_, ?_⟩
    · obtain ⟨slot, -, rfl⟩ := List.mem_map.mp hfield
      exact (slot.codec.validate_encode hv).1
    · obtain ⟨entries, hentries, rfl⟩ := map_eq_some_iff.mp h
      exact m.validate_reads (m.reads_dump hentries)
  validate_sortKeys {v} hnormal := by
    cases v with
    | obj entries =>
      refine Eq.trans (congrArg m.validate (funext fun name => ?_))
        (m.validate_sortKeys fun name v hv => normal_lookupEntries hnormal hv)
      exact lookupEntries_sortKeys hnormal.1 _
    | _ => rfl

namespace Codec

variable {α : Type} (c : Codec α)

def dumpEntries (entries : List (String × α)) : List (String × PyValue) :=
  entries.map fun e => (e.1, c.dump e.2)

def dumpDict (d : Dict String α) : PyValue := .dict (named (c.dumpEntries d.entries))

def restoreEntries : List (Str × JsonValue) → List (String × α)
  | [] => []
  | (key, v) :: entries =>
    match textOf? key, c.validate v with
    | some text, some a => (String.ofList text, a) :: restoreEntries entries
    | _, _ => restoreEntries entries

def restore : Option JsonValue → Dict String α
  | some (.obj entries) => Dict.ofList (c.restoreEntries entries)
  | _ => Dict.empty

theorem restoreEntries_encode (h : encodeEntries floats (named (c.dumpEntries es)) = some entries) :
    c.restoreEntries entries = es := by
  induction es generalizing entries with
  | nil =>
    cases h
    rfl
  | cons e es ih =>
    obtain ⟨v, tail, rfl, hv, htail⟩ := encodeEntries_cons h
    rw [restoreEntries, textOf?_strOf, (c.validate_encode hv).2, ih htail]
    simp

theorem restore_encode (h : encode floats (c.dumpDict d) = some v) :
    Normal v ∧ c.restore (some v) = d := by
  refine ⟨normal_encode_named h ?_ fun field hfield v hv => ?_, ?_⟩
  · rw [dumpEntries, List.map_map]
    exact d.nodup
  · obtain ⟨e, -, rfl⟩ := List.mem_map.mp hfield
    exact (c.validate_encode hv).1
  · obtain ⟨entries, hentries, rfl⟩ := map_eq_some_iff.mp h
    rw [restore, c.restoreEntries_encode hentries]
    exact Dict.ext (Dict.entries_ofList d.nodup)

theorem isSome_encode_dumpDict : (encode floats (c.dumpDict d)).isSome ↔
      ∀ key a, d.get? key = some a → (encode floats (c.dump a)).isSome := by
  rw [dumpDict, isSome_encode_named, dumpEntries, List.forall_mem_map]
  constructor
  · exact fun h key a hget => h (key, a) ((Dict.mem_entries _ _ _).mpr hget)
  · exact fun h e he => h e.1 e.2 ((Dict.mem_entries _ _ _).mp he)

theorem mem_restoreEntries {entries : List (Str × JsonValue)} {key : String} {a : α} :
    (key, a) ∈ c.restoreEntries entries ↔
      ∃ v, (strOf key.toList, v) ∈ entries ∧ c.validate v = some a := by
  induction entries with
  | nil => simp [restoreEntries]
  | cons entry entries ih =>
    obtain ⟨s, v⟩ := entry
    have hkey : ∀ text, textOf? s = some text → (strOf key.toList = s ↔ key = String.ofList text) :=
      fun text htext => by
        rw [eq_strOf htext]
        constructor
        · intro h
          rw [← strOf_injective h, String.ofList_toList]
        · rintro rfl
          rw [String.toList_ofList]
    have hnone : textOf? s = none → strOf key.toList ≠ s := fun h heq => by
      rw [← heq, textOf?_strOf] at h
      cases h
    rw [restoreEntries]
    cases htext : textOf? s with
    | none =>
      have hne := hnone htext
      simp [ih, hne]
    | some text =>
      have hiff := hkey text htext
      cases hvalidate : c.validate v with
      | none =>
        simp only [ih, mem_cons, Prod.mk.injEq]
        constructor
        · rintro ⟨w, hmem, hw⟩
          exact ⟨w, .inr hmem, hw⟩
        · rintro ⟨w, ⟨-, rfl⟩ | hmem, hw⟩
          · rw [hvalidate] at hw
            cases hw
          · exact ⟨w, hmem, hw⟩
      | some b =>
        simp only [ih, mem_cons, Prod.mk.injEq]
        constructor
        · rintro (⟨hk, rfl⟩ | ⟨w, hmem, hw⟩)
          · exact ⟨v, .inl ⟨hiff.mpr hk, rfl⟩, hvalidate⟩
          · exact ⟨w, .inr hmem, hw⟩
        · rintro ⟨w, ⟨hk, rfl⟩ | hmem, hw⟩
          · rw [hvalidate] at hw
            exact .inl ⟨hiff.mp hk, (some.inj hw).symm⟩
          · exact .inr ⟨w, hmem, hw⟩

theorem nodup_restoreEntries
    (h : (entries.map Prod.fst).Nodup) : ((c.restoreEntries entries).map Prod.fst).Nodup := by
  induction entries with
  | nil => exact nodup_nil
  | cons entry entries ih =>
    obtain ⟨s, v⟩ := entry
    obtain ⟨hs, hnodup⟩ := nodup_cons.mp h
    rw [restoreEntries]
    split
    · next text a htext _ =>
      refine nodup_cons.mpr ⟨fun hmem => ?_, ih hnodup⟩
      obtain ⟨⟨key, b⟩, hb, rfl⟩ := List.mem_map.mp hmem
      obtain ⟨w, hw, -⟩ := c.mem_restoreEntries.mp hb
      refine hs (List.mem_map.mpr ⟨_, hw, ?_⟩)
      change strOf (String.ofList text).toList = s
      rw [String.toList_ofList, eq_strOf htext]
    · exact ih hnodup

theorem get?_restore (h : (entries.map Prod.fst).Nodup)
    (key : String) :
    (c.restore (some (.obj entries))).get? key =
      (Dict.lookupEntries (strOf key.toList) entries).bind c.validate := by
  let plain : Dict Str JsonValue := ⟨entries, h⟩
  change _ = (plain.get? (strOf key.toList)).bind c.validate
  ext a
  rw [restore, Dict.get?_ofList (c.nodup_restoreEntries h), mem_restoreEntries,
    bind_eq_some_iff]
  exact exists_congr fun v => and_congr_left fun _ => Dict.mem_entries plain _ v

theorem get?_restore_sortKeys (h : Normal v) (key : String) :
    (c.restore (some (sortKeys v))).get? key = (c.restore (some v)).get? key := by
  cases v with
  | obj entries =>
    rw [sortKeys, get?_restore c (nodup_sortedFields h.1), get?_restore c h.1,
      lookupEntries_sortKeys h.1]
    cases hv : Dict.lookupEntries (strOf key.toList) entries with
    | none => rfl
    | some v => exact c.validate_sortKeys (normal_lookupEntries h hv)
  | _ => rfl

theorem get?_restore_same {v w : Option JsonValue} (hv : ∀ x ∈ v, Normal x)
    (hw : ∀ x ∈ w, Normal x) (hsame : v.map sortKeys = w.map sortKeys) (key : String) :
    (c.restore v).get? key = (c.restore w).get? key := by
  cases v with
  | none =>
    rw [map_none, eq_comm, map_eq_none_iff] at hsame
    rw [hsame]
  | some v =>
    obtain ⟨w, rfl, heq⟩ := map_eq_some_iff.mp hsame.symm
    rw [← c.get?_restore_sortKeys (hv v rfl), ← c.get?_restore_sortKeys (hw w rfl), heq]

end Codec

def JsonValue.entry (name : String) (v : JsonValue) : Option JsonValue :=
  (fieldsOf v).bind fun fields => fields name

theorem normal_entry (h : Normal v) (name : String) : ∀ x ∈ v.entry name, Normal x := by
  cases v with
  | obj entries => exact fun x hx => normal_lookupEntries h hx
  | _ => nofun

theorem entry_encode
    (h : encode floats (.dict (named fields)) = some v) (hnodup : (fields.map Prod.fst).Nodup) :
    ∀ field ∈ fields, ∃ w, v.entry field.1 = some w ∧ encode floats field.2 = some w := by
  obtain ⟨entries, hentries, rfl⟩ := map_eq_some_iff.mp h
  exact lookup_encodeEntries hentries hnodup

theorem entry_same (hv : Normal v) (hw : Normal w) (hsame : Same v w)
    (name : String) : (v.entry name).map sortKeys = (w.entry name).map sortKeys := by
  have hentry : ∀ {x : JsonValue}, Normal x →
      (sortKeys x).entry name = (x.entry name).map sortKeys := fun {x} hx => by
    cases x with
    | obj entries => exact lookupEntries_sortKeys hx.1 _
    | _ => rfl
  rw [← hentry hv, ← hentry hw, hsame]

end Agent33.Library.JsonText
