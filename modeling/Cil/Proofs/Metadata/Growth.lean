import Cil.Proofs.Metadata.Tables

/-!
# Growing modules

A module only grows.  Whatever is declared later, a token that resolves goes on to resolve to
the same definition, which at most receives the body that it lacked.  New rows get new tokens,
as long as tokens can name them.
-/

namespace Cil

open Stateful
open MonadExcept (ofExcept)

/-! ## Methods that receive a body -/

/-- The instantiation of a generic definition: its signature with the arguments in place of the
parameters, and the body that the definition has. -/
def MethodDef.instantiated (definition : MethodDef) (token : Token) (arguments : List TypeSig) :
    MethodDef :=
  { definition with
    token
    params := definition.params.map (TypeSig.substitute arguments)
    returnType := definition.returnType.substitute arguments
    genericArguments := arguments }

theorem MethodDef.instantiate_eq_ok {definition instantiation : MethodDef} {token : Token}
    {arguments : List TypeSig} :
    definition.instantiate token arguments = .ok instantiation ↔
      definition.isInstantiation = false ∧ definition.genericArity ≠ 0 ∧
        arguments.length = definition.genericArity ∧
        definition.instantiated token arguments = instantiation := by
  unfold instantiate
  split
  · grind
  · split
    · grind
    · simp_all [instantiated]

/-- A method as it was, or with the body that it lacked. -/
def MethodDef.Became (before after : MethodDef) : Prop :=
  ∃ body?, after = { before with body? } ∧ (before.body?.isSome → body? = before.body?)

namespace MethodDef.Became

variable {first second third : MethodDef}

@[refl]
theorem refl (method : MethodDef) : method.Became method :=
  ⟨method.body?, rfl, fun _ => rfl⟩

theorem trans (before : first.Became second) (after : second.Became third) :
    first.Became third := by
  obtain ⟨middle?, rfl, middleEq⟩ := before
  obtain ⟨last?, rfl, lastEq⟩ := after
  refine ⟨last?, rfl, fun present => ?_⟩
  have kept := middleEq present
  exact (lastEq (show middle?.isSome by rw [kept]; exact present)).trans kept

theorem attached {method : MethodDef} (absent : method.body? = none) (bytes : List UInt8) :
    method.Became { method with body? := some bytes } :=
  ⟨some bytes, rfl, fun present => by rw [absent] at present; cases present⟩

theorem eq_of_body (became : first.Became second) (present : first.body?.isSome) :
    second = first := by
  obtain ⟨body?, rfl, kept⟩ := became
  rw [kept present]

/-- The instantiation of a method that received its body has received it, too. -/
theorem instantiate {definition later instantiation : MethodDef} {token : Token}
    {arguments : List TypeSig} (became : definition.Became later)
    (made : definition.instantiate token arguments = .ok instantiation) :
    ∃ now, later.instantiate token arguments = .ok now ∧ instantiation.Became now := by
  obtain ⟨body?, rfl, kept⟩ := became
  obtain ⟨definite, generic, count, rfl⟩ := instantiate_eq_ok.mp made
  exact ⟨_, instantiate_eq_ok.mpr ⟨definite, generic, count, rfl⟩, body?, rfl, kept⟩

end MethodDef.Became

namespace Module

/-! ## Rows stay -/

/-- The rows of a module stand where they stood in an earlier one; methods may have received
bodies. -/
structure Grows (before after : Module) : Prop where
  type {index : Nat} {type : TypeDef} :
    before.types[index]? = some type → after.types[index]? = some type
  method {index : Nat} {method : MethodDef} : before.methods[index]? = some method →
    ∃ later, after.methods[index]? = some later ∧ method.Became later
  field {index : Nat} {field : FieldDef} :
    before.fields[index]? = some field → after.fields[index]? = some field
  string {index : Nat} {text : String} :
    before.strings[index]? = some text → after.strings[index]? = some text
  signature {index : Nat} {signature : StandAloneSignature} :
    before.signatures[index]? = some signature → after.signatures[index]? = some signature
  instantiation {index : Nat} {request : Token × List TypeSig} :
    before.instantiations[index]? = some request → after.instantiations[index]? = some request

theorem Grows.refl (module : Module) : module.Grows module where
  type found := found
  method found := ⟨_, found, .refl _⟩
  field found := found
  string found := found
  signature found := found
  instantiation found := found

theorem getElem?_push_of_some {α : Type} {rows : Array α} {index : Nat} {row : α}
    (found : rows[index]? = some row) (next : α) : (rows.push next)[index]? = some row := by
  have inside := (Array.getElem?_eq_some_iff.mp found).1
  rw [Array.getElem?_push, if_neg (by omega), found]

/-- Additions and bodies make a module grow. -/
theorem Grows.stable (start : Module) : Stable start.Grows where
  type grows _ _ _ := { grows with type := fun found => getElem?_push_of_some (grows.type found) _ }
  method grows _ _ _ := { grows with
    method := fun found =>
      have ⟨later, place, became⟩ := grows.method found
      ⟨later, getElem?_push_of_some place _, became⟩ }
  field grows _ :=
    { grows with field := fun found => getElem?_push_of_some (grows.field found) _ }
  string _ grows :=
    { grows with string := fun found => getElem?_push_of_some (grows.string found) _ }
  signature _ grows :=
    { grows with signature := fun found => getElem?_push_of_some (grows.signature found) _ }
  instantiation _ grows :=
    { grows with instantiation := fun found => getElem?_push_of_some (grows.instantiation found) _ }
  body {module token definition} bytes grows known absent := by
    obtain ⟨place, named, present⟩ := methodDef_eq_ok.mp known
    have row : token.row - 1 = place := by
      rw [(Token.indexIn?_eq_some.mp named).2, Nat.add_sub_cancel]
    refine { grows with method := fun {index method} found => ?_ }
    obtain ⟨later, laterPlace, became⟩ := grows.method found
    rw [Array.getElem?_modify, row]
    by_cases same : place = index
    · subst same
      obtain rfl := Option.some.inj (present.symm.trans laterPlace)
      rw [if_pos rfl, present]
      exact ⟨_, rfl, became.trans (.attached absent bytes)⟩
    · rw [if_neg same]
      exact ⟨later, laterPlace, became⟩

/-! ## Tokens stay -/

/-- What a token can resolve to. -/
inductive Entry
  | type (definition : TypeDef)
  | method (definition : MethodDef)
  | field (definition : FieldDef)
  | string (text : String)
  | signature (signature : StandAloneSignature)

/-- An entry as it was, or a method with the body that it lacked. -/
inductive Entry.Became : Entry → Entry → Prop
  | same (entry : Entry) : Became entry entry
  | method {before after : MethodDef} :
      before.Became after → Became (.method before) (.method after)

/-- What a token resolves to. -/
def Names (module : Module) (token : Token) : Entry → Prop
  | .type definition => module.typeDef token = .ok definition
  | .method definition => module.method token = .ok definition
  | .field definition => module.field token = .ok definition
  | .string text => module.userString token = .ok text
  | .signature signature => module.standAloneSignature token = .ok signature

theorem field_eq_ok {module : Module} {token : Token} {field : FieldDef} :
    module.field token = .ok field ↔ row? .field module.fields token = some field := by
  unfold Module.field
  split <;> simp_all

theorem userString_eq_ok {module : Module} {token : Token} {text : String} :
    module.userString token = .ok text ↔
      row? .userString module.strings token = some text := by
  unfold userString
  split <;> simp_all

theorem standAloneSignature_eq_ok {module : Module} {token : Token}
    {signature : StandAloneSignature} :
    module.standAloneSignature token = .ok signature ↔
      row? .standAloneSig module.signatures token = some signature := by
  unfold standAloneSignature
  split <;> simp_all

theorem row?_mono {α : Type} {table : TableId} {rows more : Array α} {token : Token} {row : α}
    (kept : ∀ {index : Nat} {row : α}, rows[index]? = some row → more[index]? = some row)
    (found : row? table rows token = some row) : row? table more token = some row := by
  obtain ⟨index, named, place⟩ := Option.bind_eq_some_iff.mp found
  exact Option.bind_eq_some_iff.mpr ⟨index, named, kept place⟩

namespace Grows

variable {before after : Module} {token : Token}

theorem methodDef (grows : before.Grows after) {definition : MethodDef}
    (known : before.methodDef token = .ok definition) :
    ∃ later, after.methodDef token = .ok later ∧ definition.Became later := by
  obtain ⟨index, named, place⟩ := methodDef_eq_ok.mp known
  obtain ⟨later, laterPlace, became⟩ := grows.method place
  exact ⟨later, methodDef_eq_ok.mpr ⟨index, named, laterPlace⟩, became⟩

/-- An instantiation stays one of the same method, with the body that the method has. -/
theorem methodOf (grows : before.Grows after) {method : MethodDef}
    (known : before.method token = .ok method) :
    ∃ later, after.method token = .ok later ∧ method.Became later := by
  unfold Module.method at known ⊢
  split at known
  · rename_i isSpec
    rw [if_pos isSpec]
    cases asked : row? .methodSpec before.instantiations token with
    | none => rw [asked] at known; cases known
    | some request =>
        rw [asked] at known
        rw [row?_mono grows.instantiation asked]
        obtain ⟨definition, found, made⟩ := except_bind_eq_ok.mp known
        obtain ⟨later, laterFound, became⟩ := grows.methodDef found
        obtain ⟨now, nowMade, nowBecame⟩ := became.instantiate made
        exact ⟨now, except_bind_eq_ok.mpr ⟨later, laterFound, nowMade⟩, nowBecame⟩
  · rename_i notSpec
    rw [if_neg notSpec]
    exact grows.methodDef known

/-- What a token resolves to, it goes on to resolve to. -/
theorem names (grows : before.Grows after) {entry : Entry} (known : before.Names token entry) :
    ∃ later, after.Names token later ∧ entry.Became later := by
  cases entry with
  | type definition =>
      obtain ⟨index, named, place⟩ := typeDef_eq_ok.mp known
      exact ⟨.type _, typeDef_eq_ok.mpr ⟨index, named, grows.type place⟩, .same _⟩
  | field definition =>
      exact ⟨.field _, field_eq_ok.mpr (row?_mono grows.field (field_eq_ok.mp known)), .same _⟩
  | string text =>
      exact ⟨.string _, userString_eq_ok.mpr (row?_mono grows.string (userString_eq_ok.mp known)),
        .same _⟩
  | signature signature =>
      exact ⟨.signature _, standAloneSignature_eq_ok.mpr
        (row?_mono grows.signature (standAloneSignature_eq_ok.mp known)), .same _⟩
  | method definition =>
      obtain ⟨later, found, became⟩ := grows.methodOf known
      exact ⟨.method later, found, .method became⟩

end Grows

/-! ## Counting rows -/

/-- How many rows a table has. -/
def rows (module : Module) : TableId → Nat
  | .typeDef => module.types.size
  | .field => module.fields.size
  | .methodDef => module.methods.size
  | .standAloneSig => module.signatures.size
  | .methodSpec => module.instantiations.size
  | .userString => module.strings.size
  | .dynamic => 0

theorem size_le_of_kept {α : Type} {rows more : Array α}
    (kept : ∀ {index : Nat} {row : α}, rows[index]? = some row →
      ∃ later, more[index]? = some later) :
    rows.size ≤ more.size := by
  by_cases none : more.size < rows.size
  · obtain ⟨later, place⟩ := kept (Array.getElem?_eq_getElem none)
    exact absurd (Array.getElem?_eq_some_iff.mp place).1 (Nat.lt_irrefl _)
  · omega

theorem Grows.rows {before after : Module} (grows : before.Grows after) (table : TableId) :
    before.rows table ≤ after.rows table := by
  cases table with
  | typeDef => exact size_le_of_kept fun found => ⟨_, grows.type found⟩
  | field => exact size_le_of_kept fun found => ⟨_, grows.field found⟩
  | methodDef => exact size_le_of_kept fun found => (grows.method found).imp fun _ => And.left
  | standAloneSig => exact size_le_of_kept fun found => ⟨_, grows.signature found⟩
  | methodSpec => exact size_le_of_kept fun found => ⟨_, grows.instantiation found⟩
  | userString => exact size_le_of_kept fun found => ⟨_, grows.string found⟩
  | dynamic => exact Nat.le_refl 0

/-! ## New rows -/

/-- The last row of a table is named by the token of the place behind the others. -/
theorem row?_push {α : Type} (table : TableId) (rows : Array α) (row : α)
    (fits : rows.size + 1 < Token.rowBound) :
    row? table (rows.push row) (.ofRow table (rows.size + 1)) = some row := by
  simp [row?, Token.indexIn?_ofRow fits]

theorem method_of_methodDef {module : Module} {index : Nat} {method : MethodDef}
    (place : module.methods[index]? = some method) (fits : index + 1 < Token.rowBound) :
    module.method (.ofRow .methodDef (index + 1)) = .ok method := by
  have table : (Token.ofRow .methodDef (index + 1)).tableId? = some .methodDef := by
    simp [Token.tableId?, TableId.ofCode?_code]
  rw [Module.method, table, if_neg (by decide)]
  exact methodDef_eq_ok.mpr ⟨index, Token.indexIn?_ofRow fits, place⟩

end Module

end Cil
