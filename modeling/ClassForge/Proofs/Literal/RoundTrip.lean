import ClassForge.Literal.Codec
import ClassForge.Proofs.Json.RoundTrip

/-! # Literals that are read back

A literal is read back from JSON if its doubles are finite and its maps have no key twice.
-/

namespace ClassForge

namespace Options

private theorem insert_of_notMem {name : String} {options : Options} (fresh : name ∉ options.map Prod.fst)
    (value : Literal) : insert name value options = options ++ [(name, value)] := by
  induction options with
  | nil => rfl
  | cons entry rest ih =>
    rw [List.map_cons, List.mem_cons, not_or] at fresh
    rw [insert, if_neg (Ne.symm fresh.1), ih fresh.2]
    rfl

/-- Entries with different names are options as they are. -/
theorem ofEntries_of_nodup {entries : List (String × Literal)} (distinct : (entries.map Prod.fst).Nodup) :
    ofEntries entries = entries := by
  suffices collected : ∀ options : Options, (options.map Prod.fst ++ entries.map Prod.fst).Nodup →
      entries.foldl (fun options entry => insert entry.1 entry.2 options) options = options ++ entries from
    collected [] distinct
  clear distinct
  induction entries with
  | nil => exact fun options _ => (List.append_nil options).symm
  | cons entry rest ih =>
    intro options distinct
    have fresh : entry.1 ∉ options.map Prod.fst := by
      intro member
      exact (List.nodup_append.mp distinct).2.2 _ member _ List.mem_cons_self rfl
    rw [List.foldl_cons, insert_of_notMem fresh, ih, List.append_assoc]
    · rfl
    · rw [List.map_append, List.append_assoc]
      exact distinct

end Options

namespace Literal

mutual

/-- Whether a literal can be told from its JSON text: only finite doubles, and no key twice in a map. -/
def isLegible : Literal → Bool
  | .float value => value.isFinite
  | .list items => itemsLegible items
  | .map entries => decide (entries.map Prod.fst).Nodup && entriesLegible entries
  | _ => true

def itemsLegible : List Literal → Bool
  | [] => true
  | item :: rest => item.isLegible && itemsLegible rest

def entriesLegible : List (String × Literal) → Bool
  | [] => true
  | (_, value) :: rest => value.isLegible && entriesLegible rest

end

mutual

theorem isReadable_toJson : (literal : Literal) → literal.isLegible = true → literal.toJson.isReadable = true
  | .null, _ | .bool _, _ | .int _, _ | .str _, _ => rfl
  | .float _, finite => finite
  | .list items, legible => itemsReadable_toJson items legible
  | .map entries, legible => by
    rw [isLegible, Bool.and_eq_true] at legible
    exact membersReadable_toJson entries legible.2

theorem itemsReadable_toJson : (items : List Literal) → itemsLegible items = true →
    Json.itemsReadable (itemsToJson items) = true
  | [], _ => rfl
  | item :: rest, legible => by
    rw [itemsLegible, Bool.and_eq_true] at legible
    rw [itemsToJson, Json.itemsReadable, isReadable_toJson item legible.1, itemsReadable_toJson rest legible.2]
    rfl

theorem membersReadable_toJson : (entries : List (String × Literal)) → entriesLegible entries = true →
    Json.membersReadable (entriesToJson entries) = true
  | [], _ => rfl
  | (key, value) :: rest, legible => by
    rw [entriesLegible, Bool.and_eq_true] at legible
    rw [entriesToJson, Json.membersReadable, isReadable_toJson value legible.1, membersReadable_toJson rest legible.2]
    rfl

end

mutual

theorem ofJson_toJson : (literal : Literal) → literal.isLegible = true → ofJson literal.toJson = .ok literal
  | .null, _ | .bool _, _ | .int _, _ | .float _, _ | .str _, _ => rfl
  | .list items, legible => by
    rw [toJson, ofJson, itemsOfJson_toJson items legible]
    rfl
  | .map entries, legible => by
    rw [isLegible, Bool.and_eq_true, decide_eq_true_eq] at legible
    rw [toJson, ofJson, entriesOfJson_toJson entries legible.2]
    exact congrArg (fun entries => Except.ok (Literal.map entries)) (Options.ofEntries_of_nodup legible.1)

theorem itemsOfJson_toJson : (items : List Literal) → itemsLegible items = true →
    itemsOfJson (itemsToJson items) = .ok items
  | [], _ => rfl
  | item :: rest, legible => by
    rw [itemsLegible, Bool.and_eq_true] at legible
    rw [itemsToJson, itemsOfJson, ofJson_toJson item legible.1, itemsOfJson_toJson rest legible.2]
    rfl

theorem entriesOfJson_toJson : (entries : List (String × Literal)) → entriesLegible entries = true →
    entriesOfJson (entriesToJson entries) = .ok entries
  | [], _ => rfl
  | (key, value) :: rest, legible => by
    rw [entriesLegible, Bool.and_eq_true] at legible
    rw [entriesToJson, entriesOfJson, ofJson_toJson value legible.1, entriesOfJson_toJson rest legible.2]
    rfl

end

end Literal

end ClassForge
