import SpiffeExample.Registration

namespace SpiffeExample.Registration
set_option autoImplicit true
open Json (Value)
open GoJson

def stringOfID : String × Value → Option String
  | (key, .string s) => if equalFold "id" key then some s else none
  | _ => none

/-- The ID that a response gives; where it gives several, the last one counts. -/
def givenID (respStr : String) : Option String :=
  match Json.parse respStr.toList with
  | some (.object ms) => (ms.filterMap stringOfID).getLast?
  | _ => none

/-- The text decodes without error to something with an ID, given or not. -/
def DecodesAsID (text : String) : Prop :=
  ∃ target, unmarshal (.pointer ⟨""⟩ (.struct RegistrationEntryID.fields)) text (some ⟨""⟩) =
    (some target, none)

/-- The text decodes to this entry without error. -/
def Shows (text : String) (registeredEntry : Option RegistrationEntry) : Prop :=
  ∃ target, unmarshal (.pointer .zero (.struct RegistrationEntry.Target.fields)) text none =
      (target, none) ∧ target.map RegistrationEntry.Target.read = registeredEntry

theorem members_id (h : Decoder.members RegistrationEntryID.fields ms x = (y, none)) :
    (ms.filterMap stringOfID).getLast?.getD x.id = y.id := by
  induction ms generalizing x with
  | nil =>
    cases h
    rfl
  | cons m ms ih =>
    obtain ⟨key, v⟩ := m
    rw [Decoder.members, RegistrationEntryID.fields, findField_singleton] at h
    have hname : (StructField.of "id" RegistrationEntryID.id (fun id _ => ⟨id⟩)
      Decoder.string).name = "id" := rfl
    rw [hname] at h
    cases hk : equalFold "id" key with
    | false =>
      rw [hk] at h
      have hm : stringOfID (key, v) = none := by
        cases v with
        | string s => simp only [stringOfID, hk, Bool.false_eq_true, if_false]
        | null | bool | number | array | object => rfl
      rw [List.filterMap_cons_none hm]
      exact ih h
    | true =>
      rw [hk] at h
      obtain ⟨hy, he⟩ := Prod.mk.inj h
      obtain ⟨hv, hms⟩ := Option.or_eq_none_iff.1 he
      have hi := ih (Prod.ext hy hms)
      cases v with
      | string s =>
        have hm : stringOfID (key, .string s) = some s := by
          simp only [stringOfID, hk, if_true]
        rw [List.filterMap_cons_some hm, List.getLast?_cons]
        exact hi
      | null => exact hi
      | bool | number | array | object => cases hv

/-- Without one that is given, the ID is empty. -/
theorem id_given (h : unmarshal (.pointer ⟨""⟩ (.struct RegistrationEntryID.fields)) text
    (some ⟨""⟩) = (some target, none)) : (givenID text).getD "" = target.id := by
  rw [unmarshal] at h
  rw [givenID]
  cases hp : Json.parse text.toList with
  | none =>
    rw [hp] at h
    cases h
  | some v =>
    rw [hp] at h
    cases v with
    | null | bool | number | string | array => cases h
    | object ms =>
      cases hm : Decoder.members RegistrationEntryID.fields ms ⟨""⟩ with
      | mk y err =>
        have hd : Decoder.pointer ⟨""⟩ (.struct RegistrationEntryID.fields) (.object ms)
            (some ⟨""⟩) = (some y, err) := by
          rw [Decoder.pointer, Option.getD_some, Decoder.struct, hm]
          exact Value.noConfusion
        dsimp only at h
        rw [hd] at h
        cases h
        exact members_id hm

theorem decodeID_eq_ok : decodeID respStr = .ok entityID ↔
    DecodesAsID respStr ∧ (givenID respStr).getD "" = entityID := by
  rw [decodeID]
  apply Iff.intro
  · intro h
    cases hu : unmarshal (.pointer ⟨""⟩ (.struct RegistrationEntryID.fields)) respStr
        (some ⟨""⟩) with
    | mk target err =>
      rw [hu] at h
      cases err with
      | some err => cases h
      | none =>
        cases target with
        | none => cases h
        | some target =>
          cases h
          exact ⟨⟨target, hu⟩, id_given hu⟩
  · rintro ⟨⟨target, hu⟩, rfl⟩
    rw [id_given hu, hu]

theorem decodeEntry_eq_ok :
    decodeEntry respStr = .ok registeredEntry ↔ Shows respStr registeredEntry := by
  rw [decodeEntry]
  apply Iff.intro
  · intro h
    cases hu : unmarshal (.pointer .zero (.struct RegistrationEntry.Target.fields)) respStr
        none with
    | mk target err =>
      rw [hu] at h
      cases err with
      | some err => cases h
      | none =>
        cases h
        exact ⟨target, hu, rfl⟩
  · rintro ⟨target, hu, rfl⟩
    rw [hu]

end SpiffeExample.Registration
