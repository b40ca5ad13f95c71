import DgxSpark.Lib.Json

/-!
# Closed JSON schemas

The part of JSON Schema that describes a closed contract: constants, enumerations, texts that
match a pattern, and objects whose members are all named. Everything else that a schema
language can say is left out.
-/

namespace DgxSpark

/-- A schema. A pattern is the predicate that it decides. -/
inductive Schema where
  | const (value : Json)
  | enum (values : List Json)
  | text (pattern : String → Bool)
  /-- an object without other members -/
  | closed (required : List String) (properties : List (String × Schema))

namespace Schema

/-- Equality of scalars: unlike Python, JSON Schema keeps booleans and numbers apart. -/
def scalarEq : Json → Json → Bool
  | .bool a, .bool b => a == b
  | .bool _, _ => false
  | _, .bool _ => false
  | a, b => a.pyEq b

mutual

/-- **A value is valid.** -/
def accepts : Schema → Json → Bool
  | .const value, j => scalarEq j value
  | .enum values, j => values.any (scalarEq j)
  | .text pattern, j =>
    match j with
    | .str s => pattern s
    | _ => false
  | .closed required properties, j =>
    j.isMapping && required.all j.hasKey &&
      (Json.keys j.members).all (fun key => (properties.map Prod.fst).contains key) &&
      acceptsMembers properties j

/-- Every member that is present is valid. -/
def acceptsMembers : List (String × Schema) → Json → Bool
  | [], _ => true
  | (key, schema) :: properties, j =>
    (match j.find? key with
      | some value => schema.accepts value
      | none => true) && acceptsMembers properties j

end

theorem acceptsMembers_iff (properties : List (String × Schema)) (j : Json) :
    acceptsMembers properties j = true ↔
      ∀ p ∈ properties, ∀ value, j.find? p.1 = some value → p.2.accepts value = true := by
  induction properties with
  | nil => simp [acceptsMembers]
  | cons p properties ih =>
    obtain ⟨key, schema⟩ := p
    rw [acceptsMembers, Bool.and_eq_true, ih, List.forall_mem_cons]
    refine and_congr_left fun _ => ?_
    cases j.find? key <;> simp

/-- A closed object, member by member. -/
theorem accepts_closed_iff (required : List String) (properties : List (String × Schema))
    (j : Json) :
    (closed required properties).accepts j = true ↔
      j.isMapping = true ∧ (∀ key ∈ required, j.hasKey key = true) ∧
        (∀ key ∈ Json.keys j.members, key ∈ properties.map Prod.fst) ∧
        ∀ p ∈ properties, ∀ value, j.find? p.1 = some value → p.2.accepts value = true := by
  simp [accepts, acceptsMembers_iff, and_assoc]

theorem accepts_const_iff (value j : Json) :
    (const value).accepts j = true ↔ scalarEq j value = true := by
  rw [accepts]

theorem accepts_enum_iff (values : List Json) (j : Json) :
    (enum values).accepts j = true ↔ ∃ value ∈ values, scalarEq j value = true := by
  simp [accepts]

theorem accepts_text_iff (pattern : String → Bool) (j : Json) :
    (text pattern).accepts j = true ↔ ∃ s, j = .str s ∧ pattern s = true := by
  cases j <;> simp [accepts]

theorem scalarEq_str_iff (j : Json) (s : String) : scalarEq j (.str s) = true ↔ j = .str s := by
  cases j <;> simp [scalarEq, Json.pyEq]

end Schema

end DgxSpark
