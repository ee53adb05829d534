import Cil.Metadata.Declaration
import Cil.Proofs.Stateful

/-!
# The tables of a module

A module starts with the core library and changes by declarations and by the addition of
rows.  Whatever is declared, every row carries the token of its place, and the types that
a type builds on stand in earlier rows.
-/

namespace Cil

open Stateful
open MonadExcept (ofExcept)

/-! ## Tokens of rows -/

namespace Token

theorem ofRow_value (table : TableId) (row : Nat) :
    (ofRow table row).value.toNat = table.code * rowBound + row % rowBound := by
  have low : row % rowBound < rowBound := Nat.mod_lt row (by decide)
  have high : table.code ≤ 0x7F := by cases table <;> decide
  simp only [rowBound] at low
  simp only [ofRow, rowBound, UInt32.toNat_ofNat']
  omega

@[simp]
theorem table_ofRow (table : TableId) (row : Nat) : (ofRow table row).table = table.code := by
  have low : row % rowBound < rowBound := Nat.mod_lt row (by decide)
  simp only [Token.table, ofRow_value]
  simp only [rowBound] at low ⊢
  omega

@[simp]
theorem row_ofRow (table : TableId) (row : Nat) :
    (ofRow table row).row = row % rowBound := by
  simp only [Token.row, ofRow_value]
  simp only [rowBound]
  omega

theorem indexIn?_ofRow {table : TableId} {index : Nat} (fits : index + 1 < rowBound) :
    (ofRow table (index + 1)).indexIn? table = some index := by
  simp [indexIn?, Nat.mod_eq_of_lt fits]

theorem indexIn?_eq_some {token : Token} {table : TableId} {index : Nat} :
    token.indexIn? table = some index ↔ token.table = table.code ∧ token.row = index + 1 := by
  simp only [indexIn?, Option.ite_none_right_eq_some, Option.some.injEq]
  omega

/-- A token is the token of the row that it names. -/
theorem eq_ofRow_of_indexIn? {token : Token} {table : TableId} {index : Nat}
    (named : token.indexIn? table = some index) :
    token = ofRow table (index + 1) ∧ index + 1 < rowBound := by
  obtain ⟨tableEq, rowEq⟩ := indexIn?_eq_some.mp named
  have low : token.row < rowBound := Nat.mod_lt _ (by decide)
  rw [rowEq] at low
  refine ⟨?_, low⟩
  have valueEq : token.value.toNat = (ofRow table (index + 1)).value.toNat := by
    rw [ofRow_value, Nat.mod_eq_of_lt low, ← tableEq, ← rowEq, Token.table, Token.row,
      Nat.mul_comm]
    exact (Nat.div_add_mod _ _).symm
  cases token
  simp only [ofRow, mk.injEq] at valueEq ⊢
  exact UInt32.toNat.inj valueEq

end Token

/-! ## Well-formed tables -/

/-- The types that a type builds on directly. -/
def TypeDef.parents (type : TypeDef) : List Token :=
  type.base?.toList ++ type.interfaces

namespace Module

/-- What holds of the tables of every module that was built by declarations. -/
structure Tables (module : Module) : Prop where
  type_token : ∀ {index : Nat} {type : TypeDef}, module.types[index]? = some type →
    type.token = .ofRow .typeDef (index + 1)
  /-- A type builds on types in earlier rows. -/
  parent_index : ∀ {index : Nat} {type : TypeDef}, module.types[index]? = some type →
    ∀ parent ∈ type.parents, ∃ earlier < index, parent.indexIn? .typeDef = some earlier
  method_token : ∀ {index : Nat} {method : MethodDef}, module.methods[index]? = some method →
    method.token = .ofRow .methodDef (index + 1)

/-- The modules that arise from the core library by declarations and additions, whether
or not each of them succeeds. -/
inductive Reachable : Module → Prop
  | initial : Reachable initial
  | declareType {module : Module} (declaration : TypeDeclaration) : Reachable module →
      Reachable (finalState (declareType declaration module))
  | declareField {module : Module} (owner : Token) (declaration : FieldDeclaration) :
      Reachable module → Reachable (finalState (declareField owner declaration module))
  | declareMethod {module : Module} (owner : Token) (declaration : MethodDeclaration) :
      Reachable module → Reachable (finalState (declareMethod owner declaration module))
  | implement {module : Module} (method : Token) (declaration : BodyDeclaration) :
      Reachable module → Reachable (finalState (implement method declaration module))
  | buildBody {module : Module} (declaration : BodyDeclaration) :
      Reachable module → Reachable (finalState (buildBody declaration module))
  | setBody {module : Module} (method : Token) (bytes : List UInt8) :
      Reachable module → Reachable (finalState (setBody method bytes module))
  | addString {module : Module} (text : String) :
      Reachable module → Reachable (finalState (addString text module))
  | addSignature {module : Module} (signature : StandAloneSignature) :
      Reachable module → Reachable (finalState (addSignature signature module))
  | instantiateMethod {module : Module} (method : Token) (arguments : List TypeSig) :
      Reachable module → Reachable (finalState (instantiateMethod method arguments module))

theorem typeDef_eq_ok {module : Module} {token : Token} {type : TypeDef} :
    module.typeDef token = .ok type ↔
      ∃ index, token.indexIn? .typeDef = some index ∧ module.types[index]? = some type := by
  unfold typeDef row?
  cases token.indexIn? .typeDef with
  | none => simp
  | some index => cases found : module.types[index]? <;> simp [found]

theorem methodDef_eq_ok {module : Module} {token : Token} {method : MethodDef} :
    module.methodDef token = .ok method ↔
      ∃ index, token.indexIn? .methodDef = some index ∧
        module.methods[index]? = some method := by
  unfold methodDef row?
  cases token.indexIn? .methodDef with
  | none => simp
  | some index => cases found : module.methods[index]? <;> simp [found]

namespace Tables

/-- The tables of types and methods decide. -/
theorem congr {module other : Module} (tables : module.Tables)
    (typesEq : other.types = module.types) (methodsEq : other.methods = module.methods) :
    other.Tables where
  type_token found := tables.type_token (typesEq ▸ found)
  parent_index found := tables.parent_index (typesEq ▸ found)
  method_token found := tables.method_token (methodsEq ▸ found)

private theorem core_parents :
    ∀ entry ∈ Core.types.zipIdx, ∀ parent ∈ entry.1.parents,
      ∃ earlier ∈ List.range entry.2, parent.indexIn? .typeDef = some earlier := by
  decide

private theorem eq_ofRow_of_row {rows : List Token} {table : TableId} {count index : Nat}
    {token : Token}
    (rowsEq : rows = (List.range count).map fun index => Token.ofRow table (index + 1))
    (found : rows[index]? = some token) :
    token = .ofRow table (index + 1) := by
  subst rowsEq
  rw [List.getElem?_map, Option.map_eq_some_iff] at found
  obtain ⟨place, inRange, rfl⟩ := found
  obtain ⟨_, rfl⟩ := List.getElem?_eq_some_iff.mp inRange
  rw [List.getElem_range]

theorem initial : Module.initial.Tables where
  type_token {index type} found := by
    rw [Module.initial, List.getElem?_toArray] at found
    exact eq_ofRow_of_row Core.types_token (by simp [found])
  parent_index {index type} found parent member := by
    rw [Module.initial, List.getElem?_toArray] at found
    obtain ⟨earlier, bound, named⟩ :=
      core_parents (type, index) (List.mem_zipIdx_iff_getElem?.mpr found) parent member
    exact ⟨earlier, List.mem_range.mp bound, named⟩
  method_token {index method} found := by
    rw [Module.initial, List.getElem?_toArray] at found
    exact eq_ofRow_of_row Core.methods_token (by simp [found])

/-- A new type may build on the types that are there. -/
theorem push_type {module : Module} (tables : module.Tables) {type : TypeDef}
    (token : type.token = .ofRow .typeDef (module.types.size + 1))
    (parents : ∀ parent ∈ type.parents, ∃ known, module.typeDef parent = .ok known) :
    Tables { module with types := module.types.push type } where
  type_token {index found} place := by
    rw [Array.getElem?_push] at place
    split at place
    · cases place
      subst index
      exact token
    · exact tables.type_token place
  parent_index {index found} place parent member := by
    rw [Array.getElem?_push] at place
    split at place
    · cases place
      subst index
      obtain ⟨known, knownEq⟩ := parents parent member
      obtain ⟨earlier, named, present⟩ := typeDef_eq_ok.mp knownEq
      exact ⟨earlier, (Array.getElem?_eq_some_iff.mp present).1, named⟩
    · exact tables.parent_index place parent member
  method_token := tables.method_token

theorem push_method {module : Module} (tables : module.Tables) {method : MethodDef}
    (token : method.token = .ofRow .methodDef (module.methods.size + 1)) :
    Tables { module with methods := module.methods.push method } where
  type_token := tables.type_token
  parent_index := tables.parent_index
  method_token {index found} place := by
    rw [Array.getElem?_push] at place
    split at place
    · cases place
      subst index
      exact token
    · exact tables.method_token place

end Tables

/-! ## What declarations keep -/

/-- A property of modules that the addition of rows and the attachment of a body keep. -/
structure Stable (property : Module → Prop) : Prop where
  type {module : Module} {type : TypeDef} : property module →
    type.token = .ofRow .typeDef (module.types.size + 1) →
    (∀ parent ∈ type.parents, ∃ known, module.typeDef parent = .ok known) →
    (type.isInterface → type.base? = none) →
    property { module with types := module.types.push type }
  method {module : Module} {method : MethodDef} : property module →
    method.token = .ofRow .methodDef (module.methods.size + 1) →
    method.genericArguments = [] →
    (∃ known, module.typeDef method.declaringType = .ok known) →
    property { module with methods := module.methods.push method }
  field {module : Module} {field : FieldDef} : property module →
    (∃ known, module.typeDef field.declaringType = .ok known) →
    property { module with fields := module.fields.push field }
  string {module : Module} (text : String) : property module →
    property { module with strings := module.strings.push text }
  signature {module : Module} (signature : StandAloneSignature) : property module →
    property { module with signatures := module.signatures.push signature }
  instantiation {module : Module} (request : Token × List TypeSig) : property module →
    property { module with instantiations := module.instantiations.push request }
  body {module : Module} {method : Token} {definition : MethodDef} (bytes : List UInt8) :
    property module → module.methodDef method = .ok definition → definition.body? = none →
    property { module with
      methods := module.methods.modify (method.row - 1) fun definition =>
        { definition with body? := some bytes } }

namespace Stable

variable {property : Module → Prop} (stable : Stable property)

include stable

theorem declareType (declaration : TypeDeclaration) :
    Keeps property (declareType declaration) := by
  intro module holds
  unfold Module.declareType
  refine finalState_bind holds fun _ _ read => ?_
  obtain ⟨rfl, rfl⟩ := get_eq_ok.mp read
  split
  · exact holds
  · have checksKeep : Keeps property ((declaration.effectiveBase?.toList ++
        declaration.interfaces).forM fun dependency =>
          discard (ofExcept (module.typeDef dependency) : ModuleM TypeDef)) :=
      Keeps.forM fun _ _ => (Keeps.ofExcept _).discard
    refine finalState_bind (checksKeep module holds) fun _ _ checked => ?_
    obtain ⟨rfl, known⟩ := forM_discard_ofExcept_eq_ok.mp checked
    exact stable.type holds rfl known fun isInterface => if_pos isInterface

theorem declareField (owner : Token) (declaration : FieldDeclaration) :
    Keeps property (declareField owner declaration) := by
  intro module holds
  refine finalState_bind holds fun _ _ read => ?_
  obtain ⟨rfl, rfl⟩ := get_eq_ok.mp read
  refine finalState_bind ((Keeps.ofExcept _).discard module holds) fun _ _ checked => ?_
  cases known : module.typeDef owner with
  | error error => rw [known] at checked; cases checked
  | ok definition =>
      rw [known] at checked
      cases checked
      exact stable.field holds ⟨definition, known⟩

theorem addString (text : String) : Keeps property (addString text) :=
  Keeps.modifyGet fun _ holds => stable.string text holds

theorem addSignature (signature : StandAloneSignature) :
    Keeps property (addSignature signature) :=
  Keeps.modifyGet fun _ holds => stable.signature signature holds

theorem instantiateMethod (method : Token) (arguments : List TypeSig) :
    Keeps property (instantiateMethod method arguments) := by
  intro module holds
  unfold Module.instantiateMethod
  refine finalState_bind holds fun _ _ read => ?_
  obtain ⟨rfl, rfl⟩ := get_eq_ok.mp read
  refine finalState_bind (Keeps.ofExcept _ module holds) fun _ _ found => ?_
  obtain ⟨_, rfl⟩ := ofExcept_eq_ok.mp found
  refine finalState_bind (Keeps.ofExcept _ module holds) fun _ _ checked => ?_
  obtain ⟨_, rfl⟩ := ofExcept_eq_ok.mp checked
  cases module.instantiations.findIdx? (· == (method, arguments)) with
  | some index => exact holds
  | none => exact stable.instantiation (method, arguments) holds

theorem buildBody (declaration : BodyDeclaration) :
    Keeps property (buildBody declaration) := by
  unfold Module.buildBody
  split
  · refine Keeps.get.bind fun _ => (Keeps.ofExcept _).bind fun emitted => ?_
    have rest (locals : Token) : Keeps property (do
        let bytes ← ofExcept (Body.encode emitted.code
          (declaration.maxStack?.getD emitted.maxStack) locals declaration.initLocals
          emitted.clauses)
        return (bytes, locals) : ModuleM (List UInt8 × Token)) :=
      (Keeps.ofExcept _).bind fun _ => Keeps.pure _
    dsimp only
    split
    · exact (Keeps.pure _).bind rest
    · exact (stable.addSignature _).bind rest
  · exact Keeps.throw _

theorem setBody (method : Token) (bytes : List UInt8) :
    Keeps property (setBody method bytes) := by
  intro module holds
  unfold Module.setBody
  refine finalState_bind holds fun _ _ read => ?_
  obtain ⟨rfl, rfl⟩ := get_eq_ok.mp read
  split
  · exact holds
  · refine finalState_bind (Keeps.ofExcept _ module holds) fun definition _ found => ?_
    obtain ⟨known, rfl⟩ := ofExcept_eq_ok.mp found
    cases absent : definition.body? with
    | some bytes => exact holds
    | none => exact stable.body bytes holds known absent

theorem implement (method : Token) (declaration : BodyDeclaration) :
    Keeps property (implement method declaration) := by
  refine Keeps.get.bind fun _ => (Keeps.ofExcept _).bind fun _ => ?_
  split
  · exact Keeps.throw _
  · exact (stable.buildBody _).bind fun _ => stable.setBody _ _

/-- Attaching the body that a declaration brings along, if any. -/
theorem attach (declaration : MethodDeclaration) (token : Token) :
    Keeps property (do
      if let some body := declaration.body? then Module.implement token body
      return token : ModuleM Token) := by
  dsimp only
  split
  · exact (stable.implement _ _).bind fun _ => Keeps.pure _
  · exact Keeps.pure _

theorem declareMethod (owner : Token) (declaration : MethodDeclaration) :
    Keeps property (declareMethod owner declaration) := by
  intro module holds
  refine finalState_bind holds fun _ _ read => ?_
  obtain ⟨rfl, rfl⟩ := get_eq_ok.mp read
  refine finalState_bind (Keeps.ofExcept _ module holds) fun ownerDef _ found => ?_
  obtain ⟨known, rfl⟩ := ofExcept_eq_ok.mp found
  dsimp only
  split
  · exact holds
  · split
    · exact holds
    · refine finalState_bind (stable.method holds rfl rfl ⟨ownerDef, known⟩) fun _ _ added => ?_
      cases added
      exact stable.attach declaration _ _ (stable.method holds rfl rfl ⟨ownerDef, known⟩)

/-- What holds at first and is kept holds of every module that arises. -/
theorem of_reachable (initial : property initial) {module : Module}
    (reachable : module.Reachable) : property module := by
  induction reachable with
  | initial => exact initial
  | declareType declaration _ ih => exact stable.declareType declaration _ ih
  | declareField owner declaration _ ih => exact stable.declareField owner declaration _ ih
  | declareMethod owner declaration _ ih => exact stable.declareMethod owner declaration _ ih
  | implement method declaration _ ih => exact stable.implement method declaration _ ih
  | buildBody declaration _ ih => exact stable.buildBody declaration _ ih
  | setBody method bytes _ ih => exact stable.setBody method bytes _ ih
  | addString text _ ih => exact stable.addString text _ ih
  | addSignature signature _ ih => exact stable.addSignature signature _ ih
  | instantiateMethod method arguments _ ih => exact stable.instantiateMethod method arguments _ ih

end Stable

theorem Tables.stable : Stable Tables where
  type tables token parents _ := tables.push_type token parents
  method tables token _ _ := tables.push_method token
  field tables _ := tables.congr rfl rfl
  string _ tables := tables.congr rfl rfl
  signature _ tables := tables.congr rfl rfl
  instantiation _ tables := tables.congr rfl rfl
  body bytes tables _ _ := by
    refine ⟨tables.type_token, tables.parent_index, fun {index changed} place => ?_⟩
    rw [Array.getElem?_modify] at place
    split at place
    · obtain ⟨original, originalPlace, rfl⟩ := Option.map_eq_some_iff.mp place
      exact (tables.method_token originalPlace :)
    · exact tables.method_token place

/-- Whatever is declared, the tables stay well formed. -/
theorem Reachable.tables {module : Module} (reachable : module.Reachable) :
    module.Tables :=
  Tables.stable.of_reachable Tables.initial reachable

end Module

end Cil
