import Mathlib.Data.List.Permutation
import SqlBuilder.Command.Config
import SqlBuilder.Proofs.Json.Order

/-! # Settings written and read

Settings that are written as JSON are read back as they were, up to the largest spans and sizes. An
object says no more than which value each setting has: members can change places, at every depth,
members with other keys can be left out, and a missing one amounts to its default. So an object is
read like the list of these values in the order of the settings, of which the last may be missing.
-/

namespace SqlBuilder

namespace Duration

/-- The span of some seconds and nanoseconds is the one that is as long as they are together. -/
theorem ofParts?_eq_some_iff {secs nanos : Nat} {d : Duration} :
    ofParts? secs nanos = some d ↔
      d.secs.toNat * 1000000000 + d.nanos = secs * 1000000000 + nanos := by
  constructor
  · intro made
    rw [ofParts?] at made
    split at made
    case isTrue fits =>
      have whole : (UInt64.ofNat (secs + nanos / 1000000000)).toNat = secs + nanos / 1000000000 :=
        UInt64.toNat_ofNat_of_lt' fits
      cases made
      simp only [whole]
      omega
    case isFalse => cases made
  · intro same
    have short := d.nanos_lt
    have fits : d.secs.toNat < UInt64.size := d.secs.toNat_lt_size
    have total : secs + nanos / 1000000000 = d.secs.toNat := by omega
    have rest : nanos % 1000000000 = d.nanos := by omega
    simp only [ofParts?, total, rest, fits, ↓reduceIte, UInt64.ofNat_toNat]

/-- The two numbers of a span are read from three shapes of values only. -/
theorem partsOfJson?_eq_some_iff {json secs nanos : Json} :
    partsOfJson? json = some (secs, nanos) ↔
      json = .array [secs, nanos] ∨ json = .object [("secs", secs), ("nanos", nanos)] ∨
        json = .object [("nanos", nanos), ("secs", secs)] := by
  constructor
  · intro made
    unfold partsOfJson? at made
    split at made <;> cases made <;> simp
  · rintro (rfl | rfl | rfl) <;> rfl

/-- A reordered value has the same parts, each perhaps reordered. -/
theorem exists_partsOfJson? {json json' : Json} (same : json.Reordered json') {secs nanos : Json}
    (parts : partsOfJson? json = some (secs, nanos)) :
    ∃ secs' nanos', partsOfJson? json' = some (secs', nanos') ∧ secs.Reordered secs' ∧
      nanos.Reordered nanos' := by
  induction same generalizing secs nanos with
  | refl => exact ⟨secs, nanos, parts, .refl _, .refl _⟩
  | trans _ _ ih ih' =>
    obtain ⟨secs₁, nanos₁, parts₁, sameSecs₁, sameNanos₁⟩ := ih parts
    obtain ⟨secs₂, nanos₂, parts₂, sameSecs₂, sameNanos₂⟩ := ih' parts₁
    exact ⟨secs₂, nanos₂, parts₂, sameSecs₁.trans sameSecs₂, sameNanos₁.trans sameNanos₂⟩
  | object same =>
    refine ⟨secs, nanos, ?_, .refl _, .refl _⟩
    rcases partsOfJson?_eq_some_iff.mp parts with written | written | written <;> cases written
    · rcases List.pair_perm.mp same with rfl | rfl <;> rfl
    · rcases List.pair_perm.mp same with rfl | rfl <;> rfl
  | @member value value' inner key rest _ =>
    rcases partsOfJson?_eq_some_iff.mp parts with written | written | written <;> cases written
    · exact ⟨value', nanos, rfl, inner, .refl _⟩
    · exact ⟨secs, value', rfl, .refl _, inner⟩
  | @item value value' inner before after _ =>
    rcases partsOfJson?_eq_some_iff.mp parts with written | written | written
    · match before, written with
      | [], written =>
        cases written
        exact ⟨value', nanos, rfl, inner, .refl _⟩
      | [_], written =>
        cases written
        exact ⟨secs, value', rfl, .refl _, inner⟩
      | _ :: _ :: _, written => simp at written
    · cases written
    · cases written

theorem ofJson?_of_parts {json secs nanos : Json}
    (parts : partsOfJson? json = some (secs, nanos)) :
    ofJson? json = (secs.natBelow? UInt64.size).bind fun s =>
      (nanos.natBelow? UInt32.size).bind fun n => ofParts? s n := by
  rw [ofJson?, parts]
  rfl

theorem ignoresOrder_ofJson? : Json.IgnoresOrder ofJson? := by
  refine Json.ignoresOrder_of_kept fun json json' d same made => ?_
  obtain ⟨⟨secs, nanos⟩, parts, -⟩ := Option.bind_eq_some_iff.mp made
  obtain ⟨secs', nanos', parts', sameSecs, sameNanos⟩ := exists_partsOfJson? same parts
  rw [← made, ofJson?_of_parts parts', ofJson?_of_parts parts,
    Json.ignoresOrder_natBelow? _ _ _ sameSecs, Json.ignoresOrder_natBelow? _ _ _ sameNanos]

/-- A span that is written is read back. -/
theorem ofJson?_toJson (d : Duration) : ofJson? d.toJson = some d := by
  have short : d.nanos < UInt32.size := Nat.lt_trans d.nanos_lt (by decide)
  have parts : partsOfJson? d.toJson = some (.int d.secs.toNat, .int d.nanos) :=
    partsOfJson?_eq_some_iff.mpr (.inr (.inl rfl))
  rw [ofJson?_of_parts parts, Json.natBelow?_int d.secs.toNat_lt_size, Json.natBelow?_int short]
  exact ofParts?_eq_some_iff.mpr rfl

end Duration

namespace Config

open Json (Reordered IgnoresOrder)

variable {config : Config} {members : List (String × Json)} {timeout size separator : Option Json}

/-! ### What an object says -/

/-- The settings with their defaults, as they are written. -/
def defaults : List (String × Json) :=
  [("command_timeout", .null), ("max_batch_size", .null), ("separator", .string ";")]

theorem toJson_default : ({} : Config).toJson = .object defaults := rfl

def keys : List String := defaults.map Prod.fst

def Repeats (members : List (String × Json)) : Prop :=
  ∃ key ∈ keys, 1 < (members.map Prod.fst).count key

instance (members : List (String × Json)) : Decidable (Repeats members) :=
  inferInstanceAs (Decidable (∃ key ∈ keys, 1 < (members.map Prod.fst).count key))

/-- The values of the settings in their order, by default where they are missing. -/
def inOrder (members : List (String × Json)) : List Json :=
  defaults.map fun setting => (members.lookup setting.1).getD setting.2

/-- Every setting that is missing among the members has its default. -/
structure DefaultsMissing (members : List (String × Json)) (config : Config) : Prop where
  timeout : "command_timeout" ∉ members.map Prod.fst → config.timeout? = ({} : Config).timeout?
  size : "max_batch_size" ∉ members.map Prod.fst →
    config.maxBatchSize? = ({} : Config).maxBatchSize?
  separator : "separator" ∉ members.map Prod.fst → config.separator = ({} : Config).separator

/-! ### Values of settings -/

/-- The settings are read value by value, and one that is missing reads as its default. -/
theorem ofValues?_eq_some_iff :
    ofValues? timeout size separator = some config ↔
      (timeout.getD .null).nullable Duration.ofJson? = some config.timeout? ∧
      (∃ size?, (size.getD .null).nullable (Json.natBelow? UInt64.size) = some size? ∧
        size?.map UInt64.ofNat = config.maxBatchSize?) ∧
      (separator.getD (.string ";")).string? = some config.separator := by
  simp only [ofValues?, Option.bind_eq_bind, Option.bind_eq_some_iff, Option.pure_def,
    Option.some.injEq]
  constructor
  · rintro ⟨timeout?, readTimeout, size?, readSize, separator, readSeparator, rfl⟩
    exact ⟨readTimeout, ⟨size?, readSize, rfl⟩, readSeparator⟩
  · rintro ⟨readTimeout, ⟨size?, readSize, same⟩, readSeparator⟩
    exact ⟨_, readTimeout, size?, readSize, _, readSeparator, by rw [same]⟩

theorem ofValues?_congr {timeout' size' separator' : Option Json}
    (sameTimeout : Option.Rel Reordered timeout timeout')
    (sameSize : Option.Rel Reordered size size')
    (sameSeparator : Option.Rel Reordered separator separator') :
    ofValues? timeout size separator = ofValues? timeout' size' separator' := by
  rw [ofValues?, ofValues?,
    Duration.ignoresOrder_ofJson?.nullable _ _ (Reordered.getD sameTimeout .null),
    (Json.ignoresOrder_natBelow? _).nullable _ _ (Reordered.getD sameSize .null),
    Json.ignoresOrder_string? _ _ (Reordered.getD sameSeparator (.string ";"))]

/-- Settings are read back from what they are written as. -/
theorem ofJson?_toJson (config : Config) : ofJson? config.toJson = some config := by
  have timeout := Json.nullable_getD_map Duration.ofJson? Duration.toJson (fun _ => nofun)
    Duration.ofJson?_toJson config.timeout?
  have size := Json.nullable_getD_map (Json.natBelow? UInt64.size)
    (fun size : UInt64 => .int size.toNat) (fun _ => nofun)
    (fun size => Json.natBelow?_int size.toNat_lt_size) config.maxBatchSize?
  have kept : (config.maxBatchSize?.map UInt64.toNat).map UInt64.ofNat = config.maxBatchSize? := by
    simp [Function.comp_def]
  calc
    ofJson? config.toJson =
        ofValues? (some ((config.timeout?.map Duration.toJson).getD .null))
          (some ((config.maxBatchSize?.map fun size => .int size.toNat).getD .null))
          (some (.string config.separator)) := rfl
    _ = some config := ofValues?_eq_some_iff.mpr
      ⟨timeout.trans (by rw [Option.map_id']), ⟨_, size, kept⟩, rfl⟩

/-! ### Objects and lists -/

/-- An object gives each setting what its key looks up. -/
theorem ofJson?_object (members : List (String × Json)) :
    ofJson? (.object members) =
      if Repeats members then none
      else ofValues? (members.lookup "command_timeout") (members.lookup "max_batch_size")
        (members.lookup "separator") := by
  by_cases repeated : Repeats members
  · obtain ⟨key, known, twice⟩ := id repeated
    have refused : Json.member? key members = none := by rw [Json.member?_eq, if_pos twice]
    rw [if_pos repeated]
    simp only [keys, defaults, List.map_cons, List.map_nil, List.mem_cons, List.not_mem_nil,
      or_false] at known
    rcases known with rfl | rfl | rfl <;> simp [ofJson?, refused]
  · have once (key : String) (known : key ∈ keys) :
        Json.member? key members = some (members.lookup key) := by
      rw [Json.member?_eq, if_neg fun twice => repeated ⟨key, known, twice⟩]
    rw [if_neg repeated, ofJson?, once _ (by decide), once _ (by decide), once _ (by decide)]
    rfl

/-- A list gives each setting what stands in its place. -/
theorem ofJson?_array (items : List Json) :
    ofJson? (.array items) =
      if items.length ≤ 3 then ofValues? items[0]? items[1]? items[2]? else none := by
  match items with
  | [] | [_] | [_, _] | [_, _, _] => rfl
  | _ :: _ :: _ :: _ :: _ => simp [ofJson?]

theorem ofJson?_inOrder (members : List (String × Json)) :
    ofJson? (.array (inOrder members)) =
      ofValues? (members.lookup "command_timeout") (members.lookup "max_batch_size")
        (members.lookup "separator") := rfl

/-- A list is read like the object of its items under the keys in order. -/
theorem ofJson?_array_eq_zip (items : List Json) :
    ofJson? (.array items) =
      if items.length ≤ 3 then ofJson? (.object (keys.zip items)) else none := by
  match items with
  | [] | [_] | [_, _] | [_, _, _] => rfl
  | _ :: _ :: _ :: _ :: _ => simp [ofJson?]

/-- A list that is too short is read as if the defaults stood behind it. -/
theorem ofJson?_append_defaults (items : List Json) :
    ofJson? (.array (items ++ (defaults.map Prod.snd).drop items.length)) =
      ofJson? (.array items) := by
  match items with
  | [] | [_] | [_, _] | [_, _, _] => rfl
  | _ :: _ :: _ :: _ :: _ => simp [ofJson?]

/-- Members that are no settings are ignored. -/
theorem ofJson?_filter_keys (members : List (String × Json)) :
    ofJson? (.object (members.filter fun member => member.1 ∈ keys)) =
      ofJson? (.object members) := by
  have kept (key : String) (known : key ∈ keys) :
      Json.member? key (members.filter fun member => member.1 ∈ keys) = Json.member? key members :=
    Json.member?_filter fun member _ same => by simpa [same] using known
  rw [ofJson?, ofJson?, kept _ (by decide), kept _ (by decide), kept _ (by decide)]

/-- The order of members matters neither among the settings nor inside of them. -/
theorem ignoresOrder_ofJson? : IgnoresOrder ofJson? := by
  intro json json' same
  induction same with
  | refl => rfl
  | trans _ _ first second => exact first.trans second
  | object same => simp only [ofJson?, Json.member?_perm same]
  | @member value value' inner key rest _ =>
    have repeats : Repeats ((key, value) :: rest) ↔ Repeats ((key, value') :: rest) := Iff.rfl
    simp only [ofJson?_object, repeats, ofValues?_congr (inner.rel_lookup key _ rest)
      (inner.rel_lookup key _ rest) (inner.rel_lookup key _ rest)]
  | @item value value' inner before after _ =>
    simp only [ofJson?_array, List.length_append, List.length_cons,
      ofValues?_congr (inner.rel_getElem? before after 0) (inner.rel_getElem? before after 1)
        (inner.rel_getElem? before after 2)]

theorem defaultsMissing_of_ofJson? (made : ofJson? (.object members) = some config) :
    DefaultsMissing members config := by
  have missing (key : String) (absent : key ∉ members.map Prod.fst) :
      members.lookup key = none := by
    rw [List.lookup_eq_none_iff]
    intro member present
    simpa using fun same => absent (List.mem_map.mpr ⟨member, present, same.symm⟩)
  rw [ofJson?_object] at made
  split_ifs at made
  obtain ⟨timeout, ⟨size?, size, sized⟩, separator⟩ := ofValues?_eq_some_iff.mp made
  refine ⟨fun absent => ?_, fun absent => ?_, fun absent => ?_⟩
  · rw [missing _ absent] at timeout
    exact (Option.some.inj timeout).symm
  · rw [missing _ absent] at size
    rw [← sized, ← Option.some.inj size]
    rfl
  · rw [missing _ absent] at separator
    exact (Option.some.inj separator).symm

/-- Settings are read back as they were written. The order of members does not matter at any depth,
nor do members with other keys, and what is missing has its default. An object is read like the list
of its values in the order of the settings, unless it repeats one, and a list like the object of its
items, or like the list with the defaults behind it. -/
theorem settings_survive_json (config : Config) {json json' : Json}
    (reordered : json.Reordered json') (members : List (String × Json)) (items : List Json) :
    ofJson? config.toJson = some config ∧
      ofJson? json = ofJson? json' ∧
      ofJson? (.object (members.filter fun member => member.1 ∈ keys)) =
        ofJson? (.object members) ∧
      (∀ read, ofJson? (.object members) = some read → DefaultsMissing members read) ∧
      ofJson? (.object members) =
        (if Repeats members then none else ofJson? (.array (inOrder members))) ∧
      ofJson? (.array items) =
        (if items.length ≤ 3 then ofJson? (.object (keys.zip items)) else none) ∧
      ofJson? (.array (items ++ (defaults.map Prod.snd).drop items.length)) =
        ofJson? (.array items) := by
  refine ⟨config.ofJson?_toJson, ignoresOrder_ofJson? _ _ reordered, ofJson?_filter_keys members,
    fun read => defaultsMissing_of_ofJson?, ?_, ofJson?_array_eq_zip items,
    ofJson?_append_defaults items⟩
  rw [ofJson?_object, ofJson?_inOrder]

/-- The largest span and size, a span whose parts change places and whose nanoseconds amount to a
second, an object without two of the settings and with another member, and a list without the last
setting. -/
theorem settings_survive_json_reordered :
    let config : Config :=
      ⟨some ⟨18446744073709551615, 999999999, by decide⟩, some 18446744073709551615, "\n"⟩
    let json : Json := .object
      [("command_timeout", .object [("secs", .int 1), ("nanos", .int 1500000000)]),
        ("retries", .int 3), ("separator", .string "|")]
    let json' : Json := .object
      [("separator", .string "|"), ("retries", .int 3),
        ("command_timeout", .object [("nanos", .int 1500000000), ("secs", .int 1)])]
    let members : List (String × Json) := [("retries", .int 3), ("max_batch_size", .int 5)]
    let items : List Json := [.null, .int 5]
    ofJson? config.toJson = some config ∧
      json.Reordered json' ∧
      ofJson? json = some ⟨some ⟨2, 500000000, by decide⟩, none, "|"⟩ ∧
      ofJson? json' = some ⟨some ⟨2, 500000000, by decide⟩, none, "|"⟩ ∧
      ofJson? (.object members) = some ⟨none, some 5, ";"⟩ ∧
      DefaultsMissing members ⟨none, some 5, ";"⟩ ∧
      ofJson? (.array items) = some ⟨none, some 5, ";"⟩ ∧
      ofJson? (.array items) = ofJson? (.object (keys.zip items)) := by
  intro config json json' members items
  have reordered : json.Reordered json' :=
    .trans (.member (.object (.swap ..)) ..) (.object (List.reverse_perm _).symm)
  have read : ofJson? json = some ⟨some ⟨2, 500000000, by decide⟩, none, "|"⟩ := by decide
  have fewer : ofJson? (.object members) = some ⟨none, some 5, ";"⟩ := by decide
  have listed : ofJson? (.array items) = some ⟨none, some 5, ";"⟩ := by decide
  obtain ⟨kept, same, -, default, -, zipped, -⟩ :=
    settings_survive_json config reordered members items
  exact ⟨kept, reordered, read, same.symm.trans read, fewer, default _ fewer, listed, zipped⟩

end Config

end SqlBuilder
