import ClassForge.Output.Settings
import ClassForge.Proofs.Outcome

/-! # What is read from JSON

A record that was read has each of its values from the reader of its field. So the class of a blueprint that was
read has a name that can be read as one.
-/

namespace ClassForge

namespace Json

variable {α β : Type}

theorem exists_of_decode {read : Json → Except Rejection α} {text : String} {value : α}
    (success : decode read text = .ok value) : ∃ json, read json = .ok value := by
  rw [decode] at success
  generalize scan text.toList = scanned at success
  obtain ⟨json, rest⟩ := scanned
  obtain ⟨found, done, checked⟩ := bind_eq_ok success
  split at checked
  · exact ⟨_, Except.ok.inj checked ▸ done⟩
  · cases checked

theorem exists_of_readChecked {ε : Type} {check : String → Except ε α} {message : ε → String} {json : Json}
    {value : α} (success : readChecked check message json = .ok value) : ∃ text, check text = .ok value := by
  obtain ⟨text, _, checked⟩ := bind_eq_ok success
  refine ⟨text, ?_⟩
  split at checked
  · rename_i found
    rw [found, ← Except.ok.inj checked]
  · cases checked

namespace Fields

variable {members : Members}

theorem read_map_eq_ok {turn : α → β} {fields : Fields α} {result : β}
    (success : (fields.map turn).read members = .ok result) :
    ∃ value, fields.read members = .ok value ∧ result = turn value := by
  change turn <$> fields.read members = .ok result at success
  cases read : fields.read members with
  | error =>
    rw [read] at success
    cases success
  | ok value =>
    rw [read] at success
    exact ⟨value, rfl, (Except.ok.inj success).symm⟩

theorem read_and_eq_ok {front : Fields (α → β)} {back : Fields α} {result : β}
    (success : (front.and back).read members = .ok result) :
    ∃ turn value, front.read members = .ok turn ∧ back.read members = .ok value ∧ result = turn value := by
  rw [and] at success
  dsimp only at success
  split at success
  · rename_i turn value first second
    exact ⟨turn, value, first, second, (Except.ok.inj success).symm⟩
  · cases success
  · cases success
  · cases success

theorem exists_of_read_required {name : String} {read : Json → Except Rejection α} {value : α}
    (success : (required name read).read members = .ok value) : ∃ json, read json = .ok value := by
  rw [required, field] at success
  dsimp only at success
  split at success
  · split at success
    · exact ⟨_, eq_ok_of_mapError success⟩
    · cases success
  · cases success

theorem exists_of_record {fields : Fields α} {json : Json} {value : α}
    (success : fields.record json = .ok value) : ∃ members, fields.read members = .ok value := by
  have accounted {members : Members} (ran : fields.run members = .ok value) : fields.read members = .ok value := by
    rw [run] at ran
    split at ran
    · exact ran
    · cases ran
    · cases ran
  cases json with
  | obj entries => exact ⟨_, accounted (eq_ok_of_mapError success)⟩
  | arr items =>
    obtain ⟨found, done, checked⟩ := bind_eq_ok success
    split at checked
    · obtain rfl := Except.ok.inj checked
      exact ⟨_, accounted (eq_ok_of_mapError done)⟩
    · cases checked
  | _ => cases success

end Fields

end Json

/-- A class that is described in a file has a name that can be read. -/
theorem Blueprint.exists_ofText_name {store : FileStore} {path : String} {blueprint : Blueprint}
    (described : Blueprint.ofFile store path = .ok blueprint) : ∃ text, ClassName.ofText text = .ok blueprint.name := by
  rw [ofFile] at described
  obtain ⟨text, _, decoded⟩ := bind_eq_ok described
  obtain ⟨json, read⟩ := Json.exists_of_decode (eq_ok_of_mapError decoded)
  obtain ⟨members, read⟩ := Json.Fields.exists_of_record read
  -- The name is the first of the eight fields.
  obtain ⟨_, _, properties, -, rfl⟩ := Json.Fields.read_and_eq_ok read
  obtain ⟨_, _, constants, -, rfl⟩ := Json.Fields.read_and_eq_ok properties
  obtain ⟨_, _, interfaces, -, rfl⟩ := Json.Fields.read_and_eq_ok constants
  obtain ⟨_, _, parent, -, rfl⟩ := Json.Fields.read_and_eq_ok interfaces
  obtain ⟨_, _, isFinal, -, rfl⟩ := Json.Fields.read_and_eq_ok parent
  obtain ⟨_, _, isAbstract, -, rfl⟩ := Json.Fields.read_and_eq_ok isFinal
  obtain ⟨_, _, name, -, rfl⟩ := Json.Fields.read_and_eq_ok isAbstract
  obtain ⟨_, required, rfl⟩ := Json.Fields.read_map_eq_ok name
  obtain ⟨_, checked⟩ := Json.Fields.exists_of_read_required required
  exact Json.exists_of_readChecked checked

end ClassForge
