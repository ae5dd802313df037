import ClassForge.Proofs.Json.RoundTrip
import ClassForge.Proofs.Outcome
import ClassForge.Tree.Codec

/-! # Records that are read back

A record is written as an object of its fields in order. A reader of fields that gives a value for each of these
members by itself gives the record: every member is found under its name, and none is left over.
-/

namespace ClassForge

namespace Json

variable {α β : Type}

/-! ## Fields -/

namespace Fields

/-- Every entry is the member of its name. -/
def Holds (members : Members) (entries : List (String × Json)) : Prop :=
  ∀ entry ∈ entries, members.entries.find? (·.1 == some entry.1) = some (some entry.1, entry.2)

/-- The reader asks for these entries, and makes this value of them. -/
structure Spells (fields : Fields α) (entries : List (String × Json)) (value : α) : Prop where
  names : fields.names = entries.map Prod.fst
  read : ∀ members, Holds members entries → fields.read members = .ok value

theorem spells_field {name : String} {absent : Bool → Option α} {read : Json → Except Rejection α} {json : Json}
    {value : α} (success : read json = .ok value) : Spells (field name absent read) [(name, json)] value := by
  refine ⟨rfl, fun members holds => ?_⟩
  have found := holds _ List.mem_cons_self
  rw [List.find?_eq_bind_findIdx?_getElem?, Option.bind_eq_some_iff] at found
  obtain ⟨index, place, entry⟩ := found
  simp only [field, place, entry, success]
  rfl

theorem spells_required {name : String} {read : Json → Except Rejection α} {json : Json} {value : α}
    (success : read json = .ok value) : Spells (required name read) [(name, json)] value :=
  spells_field success

theorem spells_nullable {name : String} {read : Json → Except Rejection α} {json : Json} {value : Option α}
    (success : readOption read json = .ok value) : Spells (nullable name read) [(name, json)] value :=
  spells_field success

theorem spells_string (name text : String) : Spells (required name readString) [(name, .str text)] text :=
  spells_field rfl

theorem spells_bool (name : String) (value : Bool) : Spells (required name readBool) [(name, .bool value)] value :=
  spells_field rfl

theorem Spells.map {fields : Fields α} {entries : List (String × Json)} {value : α}
    (spells : Spells fields entries value) (turn : α → β) : Spells (fields.map turn) entries (turn value) := by
  refine ⟨spells.names, fun members holds => ?_⟩
  change turn <$> fields.read members = _
  rw [spells.read members holds]
  rfl

theorem Spells.and {front : Fields (α → β)} {back : Fields α} {early late : List (String × Json)} {turn : α → β}
    {value : α} (first : Spells front early turn) (second : Spells back late value) :
    Spells (front.and back) (early ++ late) (turn value) := by
  constructor
  · rw [List.map_append, ← first.names, ← second.names]
    rfl
  · intro members holds
    have started := first.read members fun entry member => holds entry (List.mem_append_left _ member)
    have finished := second.read members fun entry member => holds entry (List.mem_append_right _ member)
    simp only [Fields.and, started, finished]

/-- Members with names of their own that are all asked for leave nothing to complain about. -/
private theorem oddity?_eq_none {names seen : List String} {entries : List (String × Json)} (index : Nat)
    (known : ∀ entry ∈ entries, entry.1 ∈ names) (distinct : (entries.map Prod.fst).Nodup)
    (fresh : ∀ entry ∈ entries, entry.1 ∉ seen) :
    oddity? names index seen (entries.map fun (key, value) => (some key, value)) = none := by
  induction entries generalizing index seen with
  | nil => rfl
  | cons entry rest ih =>
    obtain ⟨key, value⟩ := entry
    rw [List.map_cons, List.nodup_cons] at distinct
    have asked : names.contains key = true := List.contains_iff_mem.mpr (known _ List.mem_cons_self)
    have new : ¬seen.contains key = true := fun before =>
      fresh _ List.mem_cons_self (List.contains_iff_mem.mp before)
    rw [List.map_cons, oddity?, if_pos asked, if_neg new]
    refine ih (index + 1) (fun other member => known other (List.mem_cons_of_mem _ member)) distinct.2 ?_
    intro other member repeated
    rcases List.mem_cons.mp repeated with same | before
    · exact distinct.1 (List.mem_map.mpr ⟨other, member, same⟩)
    · exact fresh other (List.mem_cons_of_mem _ member) before

private theorem holds_object {entries : List (String × Json)} (distinct : (entries.map Prod.fst).Nodup) :
    Holds ⟨entries.map fun (key, value) => (some key, value), false⟩ entries := by
  intro entry member
  induction entries with
  | nil => cases member
  | cons first rest ih =>
    rw [List.map_cons, List.nodup_cons] at distinct
    rcases List.mem_cons.mp member with rfl | later
    · simp
    · have apart : first.1 ≠ entry.1 := by
        intro same
        exact distinct.1 (same ▸ List.mem_map_of_mem later)
      rw [List.map_cons, List.find?_cons_of_neg (by simpa using apart)]
      exact ih distinct.2 later

/-- A record that is written as an object of its fields is read back. -/
theorem Spells.record {fields : Fields α} {entries : List (String × Json)} {value : α}
    (spells : Spells fields entries value) (distinct : (entries.map Prod.fst).Nodup) :
    fields.record (Json.object entries) = .ok value := by
  have odd : oddity? fields.names 0 [] (entries.map fun (key, value) => (some key, value)) = none :=
    oddity?_eq_none 0 (fun entry member => spells.names ▸ List.mem_map_of_mem member) distinct
      fun _ _ => List.not_mem_nil
  have read := spells.read _ (holds_object distinct)
  simp only [Fields.record, Json.object, run, odd, read]
  rfl

end Fields

/-! ## Other values -/

theorem readOption_ofOption {toJson : α → Json} {read : Json → Except Rejection α} {value : Option α}
    (success : ∀ own ∈ value, read (toJson own) = .ok own ∧ toJson own ≠ .null) :
    readOption read (ofOption toJson value) = .ok value := by
  cases value with
  | none => rfl
  | some own =>
    obtain ⟨success, solid⟩ := success own rfl
    have other : readOption read (toJson own) = some <$> read (toJson own) := by
      generalize toJson own = json at solid
      cases json with
      | null => contradiction
      | _ => rfl
    rw [ofOption, other, success]
    rfl

theorem readList_map {items : List β} {toJson : β → Json} {read : Json → Except Rejection α} {turn : β → α}
    (success : ∀ item ∈ items, read (toJson item) = .ok (turn item)) :
    readList read (.arr (items.map toJson)) = .ok (items.map turn) := by
  rw [readList]
  induction items with
  | nil => rfl
  | cons item rest ih =>
    rw [List.map_cons, List.mapM_cons, success item List.mem_cons_self,
      ih fun other member => success other (List.mem_cons_of_mem _ member)]
    rfl

theorem readChecked_str {ε : Type} {check : String → Except ε α} {message : ε → String} {text : String} {value : α}
    (checked : check text = .ok value) : readChecked check message (.str text) = .ok value := by
  have read : readString (.str text) = .ok text := rfl
  rw [readChecked, read, ok_bind, checked]
  rfl

theorem readTagged_tagged {plain : String → Option α} {tagged : String → Option (Json → Except Rejection α)}
    {tag : String} {read : Json → Except Rejection α} (word : plain tag = none) (known : tagged tag = some read)
    (content : Json) : readTagged plain tagged (Json.tagged tag content) = read content := by
  unfold readTagged
  simp only [Json.tagged, object, List.map_cons, List.map_nil, word, known]
  cases read content <;> rfl

/-! ## Values inside of values -/

theorem itemsReadable_eq_all (items : List Json) : itemsReadable items = items.all isReadable := by
  induction items with
  | nil => rfl
  | cons item rest ih => rw [itemsReadable, ih, List.all_cons]

theorem isReadable_object (entries : List (String × Json)) :
    (object entries).isReadable = entries.all fun entry => entry.2.isReadable := by
  rw [object, isReadable]
  induction entries with
  | nil => rfl
  | cons entry rest ih => rw [List.map_cons, membersReadable, ih, List.all_cons, Option.isSome_some, Bool.true_and]

theorem isReadable_tagged (tag : String) (content : Json) : (tagged tag content).isReadable = content.isReadable := by
  rw [tagged, isReadable_object, List.all_cons, List.all_nil, Bool.and_true]

theorem isReadable_ofOption {toJson : α → Json} {value : Option α}
    (readable : ∀ own ∈ value, (toJson own).isReadable = true) : (ofOption toJson value).isReadable = true := by
  cases value with
  | none => rfl
  | some own => exact readable own rfl

theorem isReadable_arr_map {items : List α} {toJson : α → Json}
    (readable : ∀ item ∈ items, (toJson item).isReadable = true) : (arr (items.map toJson)).isReadable = true := by
  rw [isReadable, itemsReadable_eq_all, List.all_map, List.all_eq_true]
  exact readable

theorem depth_lt_arr_map (toJson : α → Json) {items : List α} {item : α} (member : item ∈ items) :
    (toJson item).depth < (arr (items.map toJson)).depth := by
  rw [depth]
  induction items with
  | nil => cases member
  | cons first rest ih =>
    rw [List.map_cons, depthItems]
    rcases List.mem_cons.mp member with rfl | later
    · omega
    · have deeper := ih later
      omega

theorem depth_lt_object (name : String) {value : Json} {entries : List (String × Json)}
    (member : (name, value) ∈ entries) : value.depth < (object entries).depth := by
  rw [object, depth]
  induction entries with
  | nil => cases member
  | cons first rest ih =>
    rw [List.map_cons, depthMembers]
    rcases List.mem_cons.mp member with rfl | later
    · exact Nat.lt_succ_of_le (Nat.le_max_left ..)
    · have deeper := ih later
      omega

theorem depth_tagged (tag : String) (content : Json) : (tagged tag content).depth = content.depth + 1 := by
  rw [tagged, object, List.map_singleton, depth, depthMembers, depthMembers, Nat.max_zero]

end Json

end ClassForge
