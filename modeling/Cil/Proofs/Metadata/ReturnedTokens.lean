import Cil.Proofs.Metadata.Growth

/-!
# The tokens that operations return

Additions return tokens of new rows, and equal instantiations share theirs.  Resolved methods
are remembered once they are complete; this shows nowhere, since a method that has its body
does not change any more.
-/

namespace Cil

open Stateful

namespace Module

/-! ## Operations -/

/-- What is done with a module. -/
inductive Operation
  | declareType (declaration : TypeDeclaration)
  | declareField (owner : Token) (declaration : FieldDeclaration)
  | declareMethod (owner : Token) (declaration : MethodDeclaration)
  | addString (text : String)
  | addSignature (signature : StandAloneSignature)
  | instantiateMethod (method : Token) (arguments : List TypeSig)
  | setBody (method : Token) (bytes : List UInt8)
  | implement (method : Token) (declaration : BodyDeclaration)
  | buildBody (declaration : BodyDeclaration)

namespace Operation

/-- Carries an operation out; the token that it returns, if it returns one. -/
def run : Operation → ModuleM (Option Token)
  | declareType declaration => return some (← Module.declareType declaration)
  | declareField owner declaration => return some (← Module.declareField owner declaration)
  | declareMethod owner declaration => return some (← Module.declareMethod owner declaration)
  | addString text => return some (← Module.addString text)
  | addSignature signature => return some (← Module.addSignature signature)
  | instantiateMethod method arguments =>
    return some (← Module.instantiateMethod method arguments)
  | setBody method bytes => do
    Module.setBody method bytes
    return none
  | implement method declaration => do
    Module.implement method declaration
    return none
  | buildBody declaration => do
    discard (Module.buildBody declaration)
    return none

theorem keeps_run {property : Module → Prop} (stable : Stable property) (operation : Operation) :
    Keeps property operation.run := by
  cases operation with
  | declareType declaration => exact (stable.declareType _).bind fun _ => .pure _
  | declareField owner declaration => exact (stable.declareField _ _).bind fun _ => .pure _
  | declareMethod owner declaration => exact (stable.declareMethod _ _).bind fun _ => .pure _
  | addString text => exact (stable.addString _).bind fun _ => .pure _
  | addSignature signature => exact (stable.addSignature _).bind fun _ => .pure _
  | instantiateMethod method arguments =>
      exact (stable.instantiateMethod _ _).bind fun _ => .pure _
  | setBody method bytes => exact (stable.setBody _ _).bind fun _ => .pure _
  | implement method declaration => exact (stable.implement _ _).bind fun _ => .pure _
  | buildBody declaration => exact (stable.buildBody _).discard.bind fun _ => .pure _

/-- The table to which an operation adds the row whose token it returns. -/
def adds? : Operation → Option TableId
  | declareType _ => some .typeDef
  | declareField _ _ => some .field
  | declareMethod _ _ => some .methodDef
  | addString _ => some .userString
  | addSignature _ => some .standAloneSig
  | _ => none

/-- What the token that an operation returned stands for: the row that was added, or the
instantiation of the definition as it is in a module.  The flags of a method depend on its
owner, too. -/
def Describes (module : Module) (token : Token) : Operation → Entry → Prop
  | declareType declaration, entry =>
    entry = .type
      { token, space := declaration.space, name := declaration.name, flags := declaration.flags
        base? := declaration.effectiveBase?, interfaces := declaration.interfaces
        isValueType := declaration.isValueType }
  | declareField owner declaration, entry =>
    entry = .field
      { token, declaringType := owner, name := declaration.name
        signature := declaration.signature, flags := declaration.flags }
  | declareMethod owner declaration, entry =>
    ∃ flags body?, entry = .method
      { token, declaringType := owner, name := declaration.name, flags
        access := AccessFlags.isPublic, codeType := declaration.codeType
        options := declaration.options, params := declaration.params
        returnType := declaration.returnType, genericArity := declaration.genericArity
        genericArguments := [], body? }
  | addString text, entry => entry = .string text
  | addSignature signature, entry => entry = .signature signature
  | instantiateMethod method arguments, entry =>
    ∃ definition, module.methodDef method = .ok definition ∧
      entry = .method (definition.instantiated token arguments)
  | _, _ => False

end Operation

namespace Operation

variable {module after : Module} {operation : Operation} {table : TableId} {token : Token}

theorem run_declareType {declaration : TypeDeclaration}
    (ran : Module.declareType declaration module = .ok token after) :
    token = .ofRow .typeDef (module.types.size + 1) ∧
      ∃ type, (declareType declaration).Describes after token (.type type) ∧
        after = { module with types := module.types.push type } := by
  obtain ⟨_, _, read, ran⟩ := bind_eq_ok.mp ran
  obtain ⟨rfl, rfl⟩ := get_eq_ok.mp read
  dsimp only at ran
  split at ran
  · cases ran
  obtain ⟨_, _, checked, added⟩ := bind_eq_ok.mp ran
  obtain ⟨rfl, -⟩ := forM_discard_ofExcept_eq_ok.mp checked
  obtain ⟨rfl, rfl⟩ := modifyGet_eq_ok.mp added
  exact ⟨rfl, _, rfl, rfl⟩

/-- Attaching the body of a declared method leaves its token as it is. -/
theorem run_attach {declaration : MethodDeclaration} {added : Token}
    (ran : (do
      if let some body := declaration.body? then Module.implement added body
      return added : ModuleM Token) module = .ok token after) :
    added = token ∧ module.Grows after := by
  refine ⟨?_, ((Grows.stable module).attach declaration added).of_ok (.refl module) ran⟩
  generalize declaration.body? = body? at ran
  cases body? with
  | none => exact (pure_eq_ok.mp ran).1
  | some body =>
      obtain ⟨_, _, _, ended⟩ := bind_eq_ok.mp ran
      exact (pure_eq_ok.mp ended).1

/-- A method is added before the body that comes with it is assembled. -/
theorem run_declareMethod {owner : Token} {declaration : MethodDeclaration}
    (ran : Module.declareMethod owner declaration module = .ok token after) :
    token = .ofRow .methodDef (module.methods.size + 1) ∧
      ∃ method, (declareMethod owner declaration).Describes after token (.method method) ∧
        Grows { module with methods := module.methods.push method } after := by
  obtain ⟨_, _, read, ran⟩ := bind_eq_ok.mp ran
  obtain ⟨rfl, rfl⟩ := get_eq_ok.mp read
  obtain ⟨ownerDef, _, known, ran⟩ := bind_eq_ok.mp ran
  obtain ⟨_, rfl⟩ := ofExcept_eq_ok.mp known
  dsimp only at ran
  split at ran
  · cases ran
  split at ran
  · cases ran
  obtain ⟨added, middle, adding, attaching⟩ := bind_eq_ok.mp ran
  obtain ⟨rfl, rfl⟩ := modifyGet_eq_ok.mp adding
  obtain ⟨rfl, grows⟩ := run_attach attaching
  exact ⟨rfl, _, ⟨_, _, rfl⟩, grows⟩

/-- An addition appends a row, and its token names the row. -/
theorem run_adds (adds : operation.adds? = some table)
    (ran : operation.run module = .ok (some token) after) :
    token = .ofRow table (module.rows table + 1) ∧ module.rows table < after.rows table ∧
      (module.rows table + 1 < Token.rowBound →
        ∃ entry, operation.Describes after token entry ∧ after.Names token entry) := by
  cases operation with
  | declareType declaration =>
      cases adds
      obtain ⟨_, _, declared, ended⟩ := bind_eq_ok.mp ran
      cases ended
      obtain ⟨rfl, type, describes, rfl⟩ := run_declareType declared
      refine ⟨rfl, ?_, fun fits => ⟨.type type, describes, ?_⟩⟩
      · simp [rows]
      · exact typeDef_eq_ok.mpr ⟨_, Token.indexIn?_ofRow fits, Array.getElem?_push_size⟩
  | declareField owner declaration =>
      cases adds
      obtain ⟨_, _, declared, ended⟩ := bind_eq_ok.mp ran
      cases ended
      obtain ⟨_, _, read, declared⟩ := bind_eq_ok.mp declared
      obtain ⟨rfl, rfl⟩ := get_eq_ok.mp read
      obtain ⟨_, _, checked, added⟩ := bind_eq_ok.mp declared
      have keeps : Keeps (· = module) (discard (ofExcept (module.typeDef owner))) :=
        (Keeps.ofExcept _).discard
      obtain rfl := keeps.of_ok rfl checked
      obtain ⟨rfl, rfl⟩ := modifyGet_eq_ok.mp added
      refine ⟨rfl, ?_, fun fits => ⟨_, rfl, ?_⟩⟩
      · simp [rows]
      · exact field_eq_ok.mpr (row?_push _ _ _ fits)
  | declareMethod owner declaration =>
      cases adds
      obtain ⟨_, _, declared, ended⟩ := bind_eq_ok.mp ran
      cases ended
      obtain ⟨rfl, method, describes, grows⟩ := run_declareMethod declared
      refine ⟨rfl, ?_, fun fits => ?_⟩
      · have more := grows.rows .methodDef
        simp only [rows, Array.size_push] at more ⊢
        omega
      · obtain ⟨later, place, body?, rfl, -⟩ :=
          grows.method (Array.getElem?_push_size (x := method))
        obtain ⟨flags, _, described⟩ := describes
        cases Entry.method.inj described
        exact ⟨.method _, ⟨flags, body?, rfl⟩, method_of_methodDef place fits⟩
  | addString text =>
      cases adds
      obtain ⟨_, _, added, ended⟩ := bind_eq_ok.mp ran
      cases ended
      obtain ⟨rfl, rfl⟩ := modifyGet_eq_ok.mp added
      refine ⟨rfl, ?_, fun fits => ⟨.string text, rfl, ?_⟩⟩
      · simp [rows]
      · exact userString_eq_ok.mpr (row?_push _ _ _ fits)
  | addSignature signature =>
      cases adds
      obtain ⟨_, _, added, ended⟩ := bind_eq_ok.mp ran
      cases ended
      obtain ⟨rfl, rfl⟩ := modifyGet_eq_ok.mp added
      refine ⟨rfl, ?_, fun fits => ⟨.signature signature, rfl, ?_⟩⟩
      · simp [rows]
      · exact standAloneSignature_eq_ok.mpr (row?_push _ _ _ fits)
  | instantiateMethod method arguments => cases adds
  | setBody method bytes => cases adds
  | implement method declaration => cases adds
  | buildBody declaration => cases adds

/-- What an addition added, it still describes when a method has received its body. -/
theorem Describes.became {other : Module} {entry now : Entry}
    (adds : operation.adds? = some table) (describes : operation.Describes module token entry)
    (became : entry.Became now) : operation.Describes other token now := by
  cases operation with
  | declareType declaration => cases describes; cases became; rfl
  | declareField owner declaration => cases describes; cases became; rfl
  | addString text => cases describes; cases became; rfl
  | addSignature signature => cases describes; cases became; rfl
  | declareMethod owner declaration =>
      obtain ⟨flags, body?, rfl⟩ := describes
      cases became with
      | same => exact ⟨flags, body?, rfl⟩
      | method became =>
          obtain ⟨later?, rfl, _⟩ := became
          exact ⟨flags, later?, rfl⟩
  | instantiateMethod method arguments => cases adds
  | setBody method bytes => cases adds
  | implement method declaration => cases adds
  | buildBody declaration => cases adds

/-- Only definitions take type arguments. -/
theorem methodDef_of_method {definition : MethodDef} (known : module.method token = .ok definition)
    (definite : definition.isInstantiation = false) : module.methodDef token = .ok definition := by
  unfold Module.method at known
  split at known
  · split at known
    · rename_i _ _ arguments _
      obtain ⟨generic, _, made⟩ := except_bind_eq_ok.mp known
      obtain ⟨_, arity, count, rfl⟩ := MethodDef.instantiate_eq_ok.mp made
      cases arguments with
      | nil => exact absurd count.symm arity
      | cons => cases definite
    · cases known
  · exact known

theorem run_instantiateMethod {method : Token} {arguments : List TypeSig}
    (ran : Module.instantiateMethod method arguments module = .ok token after) :
    ∃ definition index, after.methodDef method = .ok definition ∧
      definition.instantiate token arguments = .ok (definition.instantiated token arguments) ∧
      token = .ofRow .methodSpec (index + 1) ∧
      after.instantiations.findIdx? (· == (method, arguments)) = some index := by
  obtain ⟨_, _, read, ran⟩ := bind_eq_ok.mp ran
  obtain ⟨rfl, rfl⟩ := get_eq_ok.mp read
  obtain ⟨definition, _, resolved, ran⟩ := bind_eq_ok.mp ran
  obtain ⟨known, rfl⟩ := ofExcept_eq_ok.mp resolved
  obtain ⟨_, _, checked, ran⟩ := bind_eq_ok.mp ran
  obtain ⟨made, rfl⟩ := ofExcept_eq_ok.mp checked
  obtain ⟨definite, generic, count, -⟩ := MethodDef.instantiate_eq_ok.mp made
  have defined := methodDef_of_method known definite
  have makes (token : Token) := MethodDef.instantiate_eq_ok.mpr
    ⟨definite, generic, count, (rfl : definition.instantiated token arguments = _)⟩
  cases found : module.instantiations.findIdx? (· == (method, arguments)) with
  | some index =>
      rw [found] at ran
      obtain ⟨rfl, rfl⟩ := pure_eq_ok.mp ran
      exact ⟨definition, index, defined, makes _, rfl, found⟩
  | none =>
      rw [found] at ran
      obtain ⟨_, _, stored, ran⟩ := bind_eq_ok.mp ran
      obtain rfl := set_eq_ok.mp stored
      obtain ⟨rfl, rfl⟩ := pure_eq_ok.mp ran
      exact ⟨definition, _, defined, makes _, rfl, by simp [Array.findIdx?_push, found]⟩

end Operation

/-- The token of an instantiation resolves to the definition with the arguments, as long as
the definition is there. -/
theorem method_of_instantiation {module : Module} {method : Token}
    {arguments : List TypeSig} {index : Nat} {definition instantiation : MethodDef}
    (asked : module.instantiations[index]? = some (method, arguments))
    (fits : index + 1 < Token.rowBound) (known : module.methodDef method = .ok definition)
    (made : definition.instantiate (.ofRow .methodSpec (index + 1)) arguments =
      .ok instantiation) :
    module.method (.ofRow .methodSpec (index + 1)) = .ok instantiation := by
  have table : (Token.ofRow .methodSpec (index + 1)).tableId? = some .methodSpec := by
    simp [Token.tableId?, TableId.ofCode?_code]
  have row : row? .methodSpec module.instantiations (.ofRow .methodSpec (index + 1)) =
      some (method, arguments) := by
    simp [row?, Token.indexIn?_ofRow fits, asked]
  rw [Module.method, if_pos table, row]
  exact except_bind_eq_ok.mpr ⟨definition, known, made⟩

/-! ## Returned tokens last -/

/-- Tokens can name all rows. -/
def Fits (module : Module) : Prop :=
  ∀ table, module.rows table < Token.rowBound

theorem Grows.fits {before after : Module} (grows : before.Grows after) (fits : after.Fits) :
    before.Fits :=
  fun table => Nat.lt_of_le_of_lt (grows.rows table) (fits table)

namespace Operation

variable {module after : Module} {operation : Operation} {table : TableId} {token : Token}

/-- What returns a token is an addition or the instantiation of a method. -/
theorem adds_or_instantiates (ran : operation.run module = .ok (some token) after) :
    (∃ table, operation.adds? = some table) ∨ ∃ method arguments,
      operation = instantiateMethod method arguments ∧
        Module.instantiateMethod method arguments module = .ok token after := by
  cases operation with
  | declareType declaration => exact .inl ⟨_, rfl⟩
  | declareField owner declaration => exact .inl ⟨_, rfl⟩
  | declareMethod owner declaration => exact .inl ⟨_, rfl⟩
  | addString text => exact .inl ⟨_, rfl⟩
  | addSignature signature => exact .inl ⟨_, rfl⟩
  | instantiateMethod method arguments =>
      obtain ⟨_, _, instantiated, ended⟩ := bind_eq_ok.mp ran
      cases ended
      exact .inr ⟨method, arguments, rfl, instantiated⟩
  | setBody method bytes =>
      obtain ⟨_, _, _, ended⟩ := bind_eq_ok.mp ran
      cases ended
  | implement method declaration =>
      obtain ⟨_, _, _, ended⟩ := bind_eq_ok.mp ran
      cases ended
  | buildBody declaration =>
      obtain ⟨_, _, _, ended⟩ := bind_eq_ok.mp ran
      cases ended

theorem adds?_ne_methodSpec (operation : Operation) : operation.adds? ≠ some .methodSpec := by
  cases operation <;> simp [adds?]

/-- What a returned token stands for, it resolves to from then on. -/
theorem returned_lasts (ran : operation.run module = .ok (some token) after)
    (fits : after.Fits) :
    ∃ entry, operation.Describes after token entry ∧ after.Names token entry ∧
      ∀ {later : Module}, after.Grows later →
        ∃ now, operation.Describes later token now ∧ later.Names token now ∧
          entry.Became now := by
  obtain ⟨table, adds⟩ | ⟨method, arguments, rfl, instantiated⟩ := adds_or_instantiates ran
  · obtain ⟨_, added, named⟩ := run_adds adds ran
    obtain ⟨entry, describes, names⟩ := named (Nat.lt_of_le_of_lt added (fits table))
    refine ⟨entry, describes, names, fun grows => ?_⟩
    obtain ⟨now, namesNow, became⟩ := grows.names names
    exact ⟨now, describes.became adds became, namesNow, became⟩
  · obtain ⟨definition, index, known, made, rfl, found⟩ := run_instantiateMethod instantiated
    obtain ⟨inside, asked, -⟩ := Array.findIdx?_eq_some_iff_getElem.mp found
    have place : after.instantiations[index]? = some (method, arguments) := by
      rw [Array.getElem?_eq_getElem inside, eq_of_beq asked]
    have row : index + 1 < Token.rowBound := Nat.lt_of_le_of_lt inside (fits .methodSpec)
    refine ⟨_, ⟨definition, known, rfl⟩, method_of_instantiation place row known made,
      fun grows => ?_⟩
    obtain ⟨later, knownLater, became⟩ := grows.methodDef known
    obtain ⟨_, madeLater, becameLater⟩ := became.instantiate made
    obtain ⟨-, -, -, rfl⟩ := MethodDef.instantiate_eq_ok.mp madeLater
    exact ⟨_, ⟨later, knownLater, rfl⟩,
      method_of_instantiation (grows.instantiation place) row knownLater madeLater,
      .method becameLater⟩

end Operation

theorem ofRow_inj {table other : TableId} {row next : Nat} (fits : row < Token.rowBound)
    (nextFits : next < Token.rowBound) :
    Token.ofRow table row = Token.ofRow other next ↔ table = other ∧ row = next := by
  refine ⟨fun equal => ⟨?_, ?_⟩, fun ⟨tableEq, rowEq⟩ => by rw [tableEq, rowEq]⟩
  · have codes := congrArg Token.table equal
    rw [Token.table_ofRow, Token.table_ofRow] at codes
    exact Option.some.inj ((TableId.ofCode?_code table).symm.trans
      (codes ▸ TableId.ofCode?_code other))
  · have rows := congrArg Token.row equal
    rwa [Token.row_ofRow, Token.row_ofRow, Nat.mod_eq_of_lt fits, Nat.mod_eq_of_lt nextFits]
      at rows

/-- Requests stay where they were found first. -/
theorem Grows.findIdx? {before after : Module} (grows : before.Grows after)
    {request : Token × List TypeSig} {index : Nat}
    (found : before.instantiations.findIdx? (· == request) = some index) :
    after.instantiations.findIdx? (· == request) = some index := by
  obtain ⟨inside, asked, first⟩ := Array.findIdx?_eq_some_iff_getElem.mp found
  have kept (place : Nat) (bound : place < before.instantiations.size) :
      ∃ known : place < after.instantiations.size,
        after.instantiations[place] = before.instantiations[place] := by
    exact Array.getElem?_eq_some_iff.mp
      (grows.instantiation (Array.getElem?_eq_getElem bound))
  obtain ⟨known, same⟩ := kept index inside
  refine Array.findIdx?_eq_some_iff_getElem.mpr ⟨known, by rw [same]; exact asked, ?_⟩
  intro place earlier
  obtain ⟨_, samePlace⟩ := kept place (Nat.lt_trans earlier inside)
  rw [samePlace]
  exact first place earlier

namespace Operation

variable {module after later final : Module} {operation first second : Operation}
variable {token other : Token}

/-- A returned token names a new row, or the first request of the same instantiation. -/
theorem returned_place (ran : operation.run module = .ok (some token) after) :
    ∃ table index, token = .ofRow table (index + 1) ∧ index < after.rows table ∧
      (operation.adds? = some table ∧ index = module.rows table ∨
        table = .methodSpec ∧ ∃ method arguments,
          operation = instantiateMethod method arguments ∧
            after.instantiations.findIdx? (· == (method, arguments)) = some index) := by
  obtain ⟨table, adds⟩ | ⟨method, arguments, rfl, instantiated⟩ := adds_or_instantiates ran
  · obtain ⟨tokenEq, more, -⟩ := run_adds adds ran
    exact ⟨table, _, tokenEq, more, .inl ⟨adds, rfl⟩⟩
  · obtain ⟨_, index, _, _, tokenEq, found⟩ := run_instantiateMethod instantiated
    exact ⟨_, index, tokenEq, (Array.findIdx?_eq_some_iff_getElem.mp found).1,
      .inr ⟨rfl, method, arguments, rfl, found⟩⟩

/-- Two returned tokens are equal exactly where both name the same instantiation. -/
theorem returned_eq_iff (ran : first.run module = .ok (some token) after)
    (grows : after.Grows later) (ranNext : second.run later = .ok (some other) final)
    (fits : final.Fits) :
    token = other ↔ ∃ method arguments, first = instantiateMethod method arguments ∧
      second = instantiateMethod method arguments := by
  have nextGrows : later.Grows final :=
    (second.keeps_run (Grows.stable later)).of_ok (.refl later) ranNext
  have afterFits := grows.fits (nextGrows.fits fits)
  obtain ⟨table, index, rfl, inside, placed⟩ := returned_place ran
  obtain ⟨next, place, rfl, insideNext, placedNext⟩ := returned_place ranNext
  rw [ofRow_inj (Nat.lt_of_le_of_lt inside (afterFits table))
    (Nat.lt_of_le_of_lt insideNext (fits next))]
  obtain ⟨adds, rfl⟩ | ⟨rfl, method, arguments, rfl, found⟩ := placed
  · refine ⟨fun ⟨same, rows⟩ => ?_, fun ⟨_, _, same, _⟩ => by rw [same] at adds; cases adds⟩
    subst same
    obtain ⟨_, rfl⟩ | ⟨rfl, _⟩ := placedNext
    · have more := grows.rows table
      omega
    · exact absurd adds first.adds?_ne_methodSpec
  · obtain ⟨adds, -⟩ | ⟨rfl, nextMethod, nextArguments, rfl, foundNext⟩ := placedNext
    · refine ⟨fun ⟨same, _⟩ => ?_, fun ⟨_, _, _, same⟩ => by rw [same] at adds; cases adds⟩
      exact absurd (same ▸ adds) second.adds?_ne_methodSpec
    · have foundFinal := nextGrows.findIdx? (grows.findIdx? found)
      constructor
      · rintro ⟨-, rows⟩
        obtain rfl : index = place := by omega
        obtain ⟨_, asked, -⟩ := Array.findIdx?_eq_some_iff_getElem.mp foundFinal
        obtain ⟨_, askedNext, -⟩ := Array.findIdx?_eq_some_iff_getElem.mp foundNext
        cases (eq_of_beq asked).symm.trans (eq_of_beq askedNext)
        exact ⟨method, arguments, rfl, rfl⟩
      · rintro ⟨_, _, same, sameNext⟩
        cases same
        cases sameNext
        rw [foundFinal] at foundNext
        cases foundNext
        exact ⟨rfl, rfl⟩

end Operation

/-! ## Remembered instantiations -/

/-- A module with the complete instantiations that were resolved in it. -/
structure Memory where
  module : Module
  known : List (Token × MethodDef)

namespace Memory

/-- Resolves a method.  An instantiation that is remembered is not made again; one that has
its body is remembered. -/
def resolve (memory : Memory) (token : Token) : Except Error MethodDef × Memory :=
  if token.tableId? = some .methodSpec then
    match memory.known.lookup token with
    | some method => (.ok method, memory)
    | none =>
      match memory.module.method token with
      | .ok method =>
        (.ok method,
          if method.body?.isSome then
            { memory with known := (token, method) :: memory.known }
          else memory)
      | .error error => (.error error, memory)
  else (memory.module.methodDef token, memory)

/-- Memories that arise from a memory by operations and by resolving methods. -/
inductive Later (start : Memory) : Memory → Prop
  | start : Later start start
  | operation {memory : Memory} (operation : Operation) : Later start memory →
      Later start { memory with module := finalState (operation.run memory.module) }
  | resolve {memory : Memory} (token : Token) : Later start memory →
      Later start (memory.resolve token).2

/-- What is remembered is complete, and it is what the tokens resolve to. -/
def Sound (memory : Memory) : Prop :=
  ∀ token method, memory.known.lookup token = some method →
    method.body?.isSome ∧ memory.module.method token = .ok method

variable {start memory : Memory} {token : Token}

theorem resolve_module : (memory.resolve token).2.module = memory.module := by
  unfold resolve
  split
  · split
    · rfl
    · split
      · split <;> rfl
      · rfl
  · rfl

theorem Later.grows (later : start.Later memory) : start.module.Grows memory.module := by
  induction later with
  | start => exact .refl _
  | operation operation _ ih => exact operation.keeps_run (Grows.stable _) _ ih
  | resolve token _ ih => rw [resolve_module]; exact ih

/-- A complete instantiation stays as it is when a module grows. -/
theorem Sound.grow (sound : memory.Sound) {module : Module}
    (grows : memory.module.Grows module) : Sound { memory with module } := by
  intro token method remembered
  obtain ⟨complete, resolved⟩ := sound token method remembered
  obtain ⟨later, found, became⟩ := grows.methodOf resolved
  exact ⟨complete, by rw [found, became.eq_of_body complete]⟩

theorem Sound.resolve (sound : memory.Sound) (token : Token) :
    (memory.resolve token).1 = memory.module.method token ∧ (memory.resolve token).2.Sound := by
  unfold Memory.resolve
  split
  · split
    · rename_i method remembered
      exact ⟨(sound token method remembered).2.symm, sound⟩
    · split
      · rename_i method resolved
        refine ⟨resolved.symm, ?_⟩
        split
        · rename_i complete
          intro other found remembered
          rw [List.lookup_cons] at remembered
          split at remembered
          · rename_i same
            cases remembered
            exact ⟨complete, eq_of_beq same ▸ resolved⟩
          · exact sound other found remembered
        · exact sound
      · rename_i failed
        exact ⟨failed.symm, sound⟩
  · rename_i notSpec
    exact ⟨by rw [Module.method, if_neg notSpec], sound⟩

theorem Later.sound (later : start.Later memory) (sound : start.Sound) : memory.Sound := by
  induction later with
  | start => exact sound
  | operation operation _ ih =>
      exact ih.grow (operation.keeps_run (Grows.stable _) _ (.refl _))
  | resolve token _ ih => exact (ih.resolve token).2

end Memory

end Module

namespace Duplicating

open Stateful

def twice : MethodDeclaration :=
  { name := "Twice", flags := MethodModifiers.isStatic, params := [.parameter 0]
    returnType := .array (.parameter 0), genericArity := 1 }

/-- A module with a generic method that has no body yet. -/
def module : Module :=
  finalState (Module.declareMethod (.ofRow .typeDef 18) twice (finalState
    (Module.declareType { space := "Demo", name := "Program" } Module.initial)))

def request : Module.Operation :=
  .instantiateMethod (.ofRow .methodDef 26) [.int32]

def token : Token := .ofRow .methodSpec 1

def after : Module := finalState (request.run module)

def implementation : Module.Operation :=
  .setBody (.ofRow .methodDef 26) [0x0A, 0x14, 0x2A]

/-- The instantiation is resolved without a body and then, twice, with one. -/
def memory : Module.Memory :=
  let early := (Module.Memory.resolve { module := after, known := [] } token).2
  ({ early with module := finalState (implementation.run early.module) }.resolve token).2

theorem request_ran : request.run module = .ok (some token) after := by
  have returned : (match request.run module with
      | .ok result _ => result == some token
      | .error _ _ => false) = true := by
    decide +kernel
  unfold after
  cases ran : request.run module with
  | ok result final =>
      rw [ran] at returned
      rw [eq_of_beq returned]
      rfl
  | error error final => rw [ran] at returned; cases returned

end Duplicating

end Cil
