import Agent33.Library.JsonRoundTrip

/-!
# Normal forms of JSON values

What a parser gives is normal, a normal value survives a round trip, and sorting the
keys keeps it normal and is done once.
-/

namespace Agent33.Library.JsonText

open List

mutual
def Normal : JsonValue → Prop
  | .float bits => canonical bits = bits
  | .str s => merge s = s
  | .arr items => NormalItems items
  | .obj fields => (fields.map Prod.fst).Nodup ∧ NormalFields fields
  | .null => True
  | .bool _ => True
  | .int _ => True

def NormalItems : List JsonValue → Prop
  | [] => True
  | value :: rest => Normal value ∧ NormalItems rest

def NormalFields : List (Str × JsonValue) → Prop
  | [] => True
  | (key, value) :: rest => (merge key = key ∧ Normal value) ∧ NormalFields rest
end

theorem normalFields_iff :
    NormalFields fields ↔ ∀ field ∈ fields, merge field.1 = field.1 ∧ Normal field.2 := by
  induction fields with
  | nil => simp [NormalFields]
  | cons field fields ih => simp [NormalFields, ih]

theorem canonical_canonical (bits : BitVec 64) : canonical (canonical bits) = canonical bits := by
  cases h : isNaN bits with
  | true =>
    have hnan : canonical bits = nan := if_pos h
    rw [hnan]
    decide
  | false => simp [canonical, h]

theorem normal_ofList (h : NormalFields fields) : Normal (.obj (Dict.ofList fields).entries) := by
  refine ⟨(Dict.ofList fields).nodup, normalFields_iff.mpr ?_⟩
  rintro ⟨key, value⟩ hmem
  exact normalFields_iff.mp h _ (Dict.mem_of_get?_ofList ((Dict.mem_entries _ _ _).mp hmem))

theorem isHigh_codePoint (c : Char) : isHigh (codePoint c) = false := by
  have hvalid : c.toNat < 0xd800 ∨ 0xdfff < c.toNat ∧ c.toNat < 0x110000 := c.valid
  refine decide_eq_false fun h => ?_
  have hnat : (codePoint c).val = c.toNat := rfl
  omega

theorem merge_strOf (text : Text) : merge (strOf text) = strOf text := by
  induction text with
  | nil => rfl
  | cons c text ih =>
    refine merge_cons_merge ih fun d t _ => ?_
    rw [isHigh_codePoint, Bool.false_and]

theorem codePoint_injective : Function.Injective codePoint := fun c d h => by
  have hnat : c.toNat = d.toNat := congrArg (fun p : CodePoint => p.val) h
  exact Char.toNat_inj.mp hnat

theorem strOf_injective (h : strOf name = strOf other) : name = other :=
  map_injective_iff.mpr codePoint_injective h

mutual
theorem normal_normalise (v : JsonValue) : Normal (normalise v) := by
  cases v with
  | float bits => exact canonical_canonical bits
  | str s => exact merge_merge s
  | arr items => exact normal_normaliseItems items
  | obj fields => exact normal_ofList (normal_normaliseFields fields)
  | null => trivial
  | bool b => trivial
  | int n => trivial

theorem normal_normaliseItems (items : List JsonValue) : NormalItems (normaliseItems items) := by
  cases items with
  | nil => trivial
  | cons v items => exact ⟨normal_normalise v, normal_normaliseItems items⟩

theorem normal_normaliseFields (fields : List (Str × JsonValue)) :
    NormalFields (normaliseFields fields) := by
  cases fields with
  | nil => trivial
  | cons field fields =>
    exact ⟨⟨merge_merge field.1, normal_normalise field.2⟩, normal_normaliseFields fields⟩
end

mutual
theorem normalise_of_normal (h : Normal v) : normalise v = v := by
  cases v with
  | float bits => exact congrArg JsonValue.float h
  | str s => exact congrArg JsonValue.str h
  | arr items => exact congrArg JsonValue.arr (normaliseItems_of_normal h)
  | obj fields =>
    rw [normalise, normaliseFields_of_normal h.2, Dict.entries_ofList h.1]
  | null => rfl
  | bool b => rfl
  | int n => rfl

theorem normaliseItems_of_normal (h : NormalItems items) : normaliseItems items = items := by
  cases items with
  | nil => rfl
  | cons v items =>
    rw [normaliseItems, normalise_of_normal h.1, normaliseItems_of_normal h.2]

theorem normaliseFields_of_normal {fields : List (Str × JsonValue)} (h : NormalFields fields) :
    normaliseFields fields = fields := by
  cases fields with
  | nil => rfl
  | cons field fields =>
    rw [normaliseFields, h.1.1, normalise_of_normal h.1.2, normaliseFields_of_normal h.2]
end

section Parsed

theorem scanString_merged (h : scanString text = .ok (s, rest)) : merge s = s := by
  rw [scanString] at h
  cases hscan : scanUnits text with
  | none =>
    rw [hscan] at h
    cases h
  | some p =>
    rw [hscan] at h
    cases h
    exact merge_merge p.1

theorem exists_of_bind {ε α β : Type} {x : Except ε α} {f : α → Except ε β} {b : β}
    (h : x >>= f = .ok b) : ∃ a, x = .ok a ∧ f a = .ok b := by
  cases x with
  | error e => cases h
  | ok a => exact ⟨a, rfl, h⟩

theorem parseNumber_normal (hfloats : floats.Lawful) (h : parseNumber floats text = .ok (v, rest)) :
    Normal v := by
  rw [parseNumber] at h
  dsimp only at h
  cases hwhole : scanWhole (scanMinus text).2 with
  | none =>
    rw [hwhole] at h
    cases h
  | some whole =>
    rw [hwhole] at h
    dsimp only at h
    generalize boundedInt? _ = bounded at h
    split at h
    · cases bounded with
      | none => cases h
      | some n =>
        cases h
        trivial
    · cases h
      rw [Normal, canonical, hfloats.parse_number]
      rfl

theorem parseAtom_normal (hfloats : floats.Lawful) (h : parseAtom floats text = .ok (v, rest)) :
    Normal v := by
  rw [parseAtom] at h
  cases hliteral : scanLiteral text with
  | some result =>
    rw [hliteral] at h
    cases h
    obtain ⟨entry, hfind, hentry⟩ := Option.map_eq_some_iff.mp hliteral
    have hmem := mem_of_find?_eq_some hfind
    simp only [literals, mem_cons, not_mem_nil, or_false] at hmem
    rcases hmem with rfl | rfl | rfl | rfl | rfl | rfl <;> cases hentry
    · trivial
    · trivial
    · trivial
    · exact canonical_canonical nan
    · exact (by decide : canonical infinity = infinity)
    · exact (by decide : canonical negInfinity = negInfinity)
  | none =>
    rw [hliteral] at h
    exact parseNumber_normal hfloats h

theorem parse_normal (hfloats : floats.Lawful) (fuel : ℕ) :
    (∀ text v rest, parseValue floats fuel text = .ok (v, rest) → Normal v) ∧
      (∀ text items rest, parseItems floats fuel text = .ok (items, rest) → NormalItems items) ∧
        ∀ text fields rest, parseFields floats fuel text = .ok (fields, rest) →
          NormalFields fields := by
  induction fuel with
  | zero => exact ⟨nofun, nofun, nofun⟩
  | succ fuel ih =>
    obtain ⟨ihvalue, ihitems, ihfields⟩ := ih
    refine ⟨fun text v rest h => ?_, fun text items rest h => ?_, fun text fields rest h => ?_⟩
    · cases text with
      | nil => cases h
      | cons c text =>
        rw [parseValue] at h
        split_ifs at h
        · obtain ⟨⟨s, _⟩, hscan, h⟩ := exists_of_bind h
          cases h
          exact scanString_merged hscan
        · split at h
          · cases h
            trivial
          · obtain ⟨⟨items, _⟩, hitems, h⟩ := exists_of_bind h
            cases h
            exact ihitems _ _ _ hitems
        · split at h
          · cases h
            exact ⟨nodup_nil, trivial⟩
          · obtain ⟨⟨fields, _⟩, hfields, h⟩ := exists_of_bind h
            cases h
            exact normal_ofList (ihfields _ _ _ hfields)
        · exact parseAtom_normal hfloats h
    · rw [parseItems] at h
      obtain ⟨⟨value, after⟩, hvalue, h⟩ := exists_of_bind h
      dsimp only at h
      split at h
      · cases h
        exact ⟨ihvalue _ _ _ hvalue, trivial⟩
      · obtain ⟨⟨more, _⟩, hmore, h⟩ := exists_of_bind h
        cases h
        exact ⟨ihvalue _ _ _ hvalue, ihitems _ _ _ hmore⟩
      · cases h
    · cases text with
      | nil => cases h
      | cons c text =>
        by_cases hc : c = '"'
        · subst hc
          rw [parseFields] at h
          obtain ⟨⟨key, afterKey⟩, hkey, h⟩ := exists_of_bind h
          dsimp only at h
          split at h
          · obtain ⟨⟨value, after⟩, hvalue, h⟩ := exists_of_bind h
            have hfield : merge key = key ∧ Normal value :=
              ⟨scanString_merged hkey, ihvalue _ _ _ hvalue⟩
            dsimp only at h
            split at h
            · cases h
              exact ⟨hfield, trivial⟩
            · obtain ⟨⟨more, _⟩, hmore, h⟩ := exists_of_bind h
              cases h
              exact ⟨hfield, ihfields _ _ _ hmore⟩
            · cases h
          · cases h
        · rw [parseFields] at h
          · cases h
          · intro _ _ _ htext
            exact hc (cons.inj htext).1

theorem loads_normal (hfloats : floats.Lawful) (h : loads floats text = .ok v) : Normal v := by
  obtain ⟨⟨value, rest⟩, hvalue, h⟩ := exists_of_bind h
  dsimp only at h
  split_ifs at h
  cases h
  exact (parse_normal hfloats _).1 _ _ _ hvalue

end Parsed

theorem sortKeysFields_eq_map (fields : List (Str × JsonValue)) :
    sortKeysFields fields = fields.map fun field => (field.1, sortKeys field.2) := by
  induction fields with
  | nil => rfl
  | cons field fields ih => rw [sortKeysFields, ih, map_cons]

theorem mem_sortedFields {fields : List (Str × JsonValue)} {field : Str × JsonValue} :
    field ∈ (sortKeysFields fields).insertionSort (fun a b => a.1 ≤ b.1) ↔
      ∃ value, (field.1, value) ∈ fields ∧ field.2 = sortKeys value := by
  rw [mem_insertionSort, sortKeysFields_eq_map, mem_map]
  constructor
  · rintro ⟨⟨key, value⟩, hmem, rfl⟩
    exact ⟨value, hmem, rfl⟩
  · rintro ⟨value, hmem, hvalue⟩
    exact ⟨(field.1, value), hmem, Prod.ext rfl hvalue.symm⟩

theorem nodup_sortedFields (h : (fields.map Prod.fst).Nodup) :
    (((sortKeysFields fields).insertionSort fun a b => a.1 ≤ b.1).map Prod.fst).Nodup := by
  have hperm := (perm_insertionSort (fun a b : Str × JsonValue => a.1 ≤ b.1)
    (sortKeysFields fields)).map Prod.fst
  rw [hperm.nodup_iff, sortKeysFields_eq_map, map_map]
  exact h

mutual
theorem normal_sortKeys (h : Normal v) : Normal (sortKeys v) := by
  cases v with
  | arr items => exact normal_sortKeysItems h
  | obj fields =>
    refine ⟨nodup_sortedFields h.1, normalFields_iff.mpr fun field hfield => ?_⟩
    have hsorted := normalFields_iff.mp (normal_sortKeysFields h.2)
    exact hsorted field ((mem_insertionSort _).mp hfield)
  | float bits => exact h
  | str s => exact h
  | null => trivial
  | bool b => trivial
  | int n => trivial

theorem normal_sortKeysItems (h : NormalItems items) : NormalItems (sortKeysItems items) := by
  cases items with
  | nil => trivial
  | cons v items => exact ⟨normal_sortKeys h.1, normal_sortKeysItems h.2⟩

theorem normal_sortKeysFields {fields : List (Str × JsonValue)} (h : NormalFields fields) :
    NormalFields (sortKeysFields fields) := by
  cases fields with
  | nil => trivial
  | cons field fields => exact ⟨⟨h.1.1, normal_sortKeys h.1.2⟩, normal_sortKeysFields h.2⟩
end

theorem sortKeysFields_of_sorted
    (h : ∀ field ∈ fields, sortKeys field.2 = field.2) : sortKeysFields fields = fields := by
  rw [sortKeysFields_eq_map]
  calc fields.map (fun field => (field.1, sortKeys field.2))
      = fields.map id := map_congr_left fun field hfield => Prod.ext rfl (h field hfield)
    _ = fields := map_id fields

mutual
theorem sortKeys_sortKeys (v : JsonValue) : sortKeys (sortKeys v) = sortKeys v := by
  cases v with
  | arr items => exact congrArg JsonValue.arr (sortKeysItems_sortKeys items)
  | obj fields =>
    rw [sortKeys, sortKeys, sortKeysFields_of_sorted fun field hfield => ?_,
      (pairwise_insertionSort _ _).insertionSort_eq]
    obtain ⟨value, hmem, hvalue⟩ := mem_sortedFields.mp hfield
    rw [hvalue]
    exact sortKeys_sortKeys_of_mem fields _ hmem
  | float bits => rfl
  | str s => rfl
  | null => rfl
  | bool b => rfl
  | int n => rfl

theorem sortKeysItems_sortKeys (items : List JsonValue) :
    sortKeysItems (sortKeysItems items) = sortKeysItems items := by
  cases items with
  | nil => rfl
  | cons v items =>
    rw [sortKeysItems, sortKeysItems, sortKeys_sortKeys v, sortKeysItems_sortKeys items]

theorem sortKeys_sortKeys_of_mem (fields : List (Str × JsonValue)) (field : Str × JsonValue)
    (hfield : field ∈ fields) : sortKeys (sortKeys field.2) = sortKeys field.2 := by
  cases fields with
  | nil => exact absurd hfield not_mem_nil
  | cons first fields =>
    rcases mem_cons.mp hfield with hfirst | hfield
    · rw [hfirst]
      exact sortKeys_sortKeys first.2
    · exact sortKeys_sortKeys_of_mem fields field hfield
end

end Agent33.Library.JsonText
