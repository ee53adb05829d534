import Cil.Proofs.Code.BodyFormat

/-!
# Reads within the data

The parser of method bodies gets at its data by numbers of one, two or four bytes.  It asks
for a number only where the data has one: whatever a read beyond the end would give, the
outcome is the same.  So every outcome is a body, a malformed header, or data that is too
short for what the header or a section promises; and what a body names was read from the
data, its clauses one after another behind the code.
-/

namespace Cil

open Stateful

namespace Body

/-! ## Parsing by reads -/

/-- How a parser gets at a number: by its offset and its width in bytes. -/
abbrev Reader := (offset width : Nat) → Except Error Nat

/-- The reader gives the numbers of the data where the data has them, and anything
elsewhere. -/
def Reader.Reads (read : Reader) (data : List UInt8) : Prop :=
  ∀ offset width, offset + width ≤ data.length → read offset width = numberAt data offset width

section Reading

variable (read : Reader) (length : Nat)

def readClause (isFat : Bool) (offset : Nat) : Except Error Clause := do
  if isFat then
    return clauseOf (← read offset 4) (← read (offset + 4) 4) (← read (offset + 8) 4)
      (← read (offset + 12) 4) (← read (offset + 16) 4) (← read (offset + 20) 4)
  else
    return clauseOf (← read offset 2) (← read (offset + 2) 2) (← read (offset + 4) 1)
      (← read (offset + 5) 2) (← read (offset + 7) 1) (← read (offset + 8) 4)

def readClauses (isFat : Bool) : (count offset : Nat) → Except Error (List Clause)
  | 0, _ => .ok []
  | count + 1, offset => do
    let clause ← readClause read isFat offset
    return clause :: (← readClauses isFat count (offset + clauseSize isFat))

/-- The size of a section, which stands behind its flags. -/
def readSize (isFat : Bool) (offset : Nat) : Except Error Nat :=
  if isFat then (· % 0x1000000) <$> read (offset + 1) 4 else read (offset + 1) 1

/-- The sections from an offset on, until one is the last or the data ends. -/
def readSections (offset : Nat) : Except Error (List Clause) :=
  if length ≤ offset + 4 then .ok []
  else do
    let flags ← read offset 1
    if !hasFlag flags clauseTable then return []
    let isFat := hasFlag flags fatSection
    let size ← readSize read isFat offset
    if size < 4 || length < offset + size then throw .outOfBounds
    let count := (size - 4) / clauseSize isFat
    let clauses ← readClauses read isFat count (offset + 4)
    if hasFlag flags sectionFollows then
      return clauses ++ (← readSections (offset + 4 + count * clauseSize isFat))
    else return clauses
termination_by length - offset

def readFat : Except Error Body := do
  if length < 12 then throw .outOfBounds
  let flags ← read 0 2
  let headerSize := flags / 0x1000 * 4
  let codeSize ← read 4 4
  if headerSize < 12 then throw (.malformed (.fatHeaderTooSmall headerSize))
  if length < codeSize + headerSize then throw .outOfBounds
  let localsToken ← read 8 4
  let maxStack ← read 2 2
  let clauses ←
    if hasFlag flags moreSections then
      readSections read length (alignedToFour (headerSize + codeSize))
    else pure []
  return { codeSize, headerSize, localsToken := ⟨UInt32.ofNat localsToken⟩, maxStack
           isFat := true, initLocals := hasFlag flags initLocalsFlag, clauses }

/-- Reads a method body from data of a given length. -/
def readBody : Except Error Body := do
  if length = 0 then throw (.malformed .emptyBody)
  let first ← read 0 1
  if first % 4 = tinyFormat then
    let codeSize := first / 4
    if length < codeSize + 1 then throw .outOfBounds
    return { codeSize, headerSize := 1, localsToken := Token.null, maxStack := tinyMaxStack
             isFat := false, initLocals := false, clauses := [] }
  else if first % 4 = fatFormat then readFat read length
  else throw (.malformed (.unknownHeader first))

end Reading

/-! ## Reads of the data -/

variable {data : List UInt8} {read : Reader}

theorem numberAt_eq_ok {offset width : Nat} (inside : offset + width ≤ data.length) :
    numberAt data offset width = .ok (Number.ofBytes ((data.drop offset).take width)) := by
  refine if_pos ?_
  rw [List.length_take, List.length_drop]
  omega

theorem exists_numberAt {offset width : Nat} (inside : offset + width ≤ data.length) :
    ∃ number, numberAt data offset width = .ok number :=
  ⟨_, numberAt_eq_ok inside⟩

/-- The width of each read of a clause keeps it inside the clause. -/
theorem readClause_eq (reads : read.Reads data) {isFat : Bool} {offset : Nat}
    (inside : offset + clauseSize isFat ≤ data.length) :
    readClause read isFat offset = clauseAt data isFat offset := by
  have same (place width : Nat) (within : place + width ≤ clauseSize isFat) :
      read (offset + place) width = numberAt data (offset + place) width :=
    reads _ _ (by omega)
  have first (width : Nat) (within : width ≤ clauseSize isFat) :
      read offset width = numberAt data offset width :=
    reads _ _ (by omega)
  cases isFat with
  | true =>
      simp only [readClause, clauseAt, if_true, first 4 (by decide), same 4 4 (by decide),
        same 8 4 (by decide), same 12 4 (by decide), same 16 4 (by decide),
        same 20 4 (by decide)]
  | false =>
      simp only [readClause, clauseAt, Bool.false_eq_true, if_false, first 2 (by decide),
        same 2 2 (by decide), same 4 1 (by decide), same 5 2 (by decide),
        same 7 1 (by decide), same 8 4 (by decide)]

theorem exists_clauseAt {isFat : Bool} {offset : Nat}
    (inside : offset + clauseSize isFat ≤ data.length) :
    ∃ clause, clauseAt data isFat offset = .ok clause := by
  have known (place width : Nat) (within : place + width ≤ clauseSize isFat) :=
    numberAt_eq_ok (show offset + place + width ≤ data.length by omega)
  have first (width : Nat) (within : width ≤ clauseSize isFat) :=
    numberAt_eq_ok (show offset + width ≤ data.length by omega)
  cases isFat with
  | true =>
      simp only [clauseAt, if_true, first 4 (by decide), known 4 4 (by decide),
        known 8 4 (by decide), known 12 4 (by decide), known 16 4 (by decide),
        known 20 4 (by decide)]
      exact ⟨_, rfl⟩
  | false =>
      simp only [clauseAt, Bool.false_eq_true, if_false, first 2 (by decide),
        known 2 2 (by decide), known 4 1 (by decide), known 5 2 (by decide),
        known 7 1 (by decide), known 8 4 (by decide)]
      exact ⟨_, rfl⟩

/-- Clauses that were read from the data one after another, the first at or behind a
start. -/
inductive Consecutive (data : List UInt8) : (start : Nat) → List Clause → Prop
  | nil (start : Nat) : Consecutive data start []
  | cons {start place : Nat} {isFat : Bool} {clause : Clause} {clauses : List Clause} :
      start ≤ place → place + clauseSize isFat ≤ data.length →
      clauseAt data isFat place = .ok clause →
      Consecutive data (place + clauseSize isFat) clauses →
      Consecutive data start (clause :: clauses)

theorem Consecutive.mono {start later : Nat} {clauses : List Clause}
    (consecutive : Consecutive data later clauses) (le : start ≤ later) :
    Consecutive data start clauses := by
  cases consecutive with
  | nil => exact .nil start
  | cons atPlace inside found rest => exact .cons (Nat.le_trans le atPlace) inside found rest

/-- A table of clauses that the data has room for is read, and the clauses stand in front of
what is read behind it. -/
theorem clausesAt_consecutive {isFat : Bool} {count offset : Nat}
    (inside : offset + count * clauseSize isFat ≤ data.length) :
    ∃ clauses, clausesAt data isFat count offset = .ok clauses ∧
      (∀ read : Reader, read.Reads data → readClauses read isFat count offset = .ok clauses) ∧
      ∀ rest, Consecutive data (offset + count * clauseSize isFat) rest →
        Consecutive data offset (clauses ++ rest) := by
  induction count generalizing offset with
  | zero =>
      refine ⟨[], rfl, fun _ _ => rfl, fun rest consecutive => ?_⟩
      simpa using consecutive
  | succ count ih =>
      rw [Nat.succ_mul, Nat.add_comm (count * _), ← Nat.add_assoc] at inside ⊢
      have first : offset + clauseSize isFat ≤ data.length := by omega
      obtain ⟨clause, found⟩ := exists_clauseAt first
      obtain ⟨clauses, others, same, consecutive⟩ := ih inside
      refine ⟨clause :: clauses, ?_, fun read reads => ?_, fun rest behind => ?_⟩
      · have further : clausesAt data isFat count
            (offset + if isFat then fatClauseSize else smallClauseSize) = .ok clauses := others
        rw [clausesAt, found]
        simp only [bind, Except.bind, further]
        rfl
      · rw [readClauses, readClause_eq reads first, found]
        simp only [bind, Except.bind, same read reads]
        rfl
      · exact .cons (Nat.le_refl _) first found (consecutive rest behind)

/-! ## Sections -/

/-- One section, with what reads the sections behind it. -/
def sectionFrom (read : Reader) (length offset : Nat)
    (behind : Nat → Except Error (List Clause)) : Except Error (List Clause) := do
  let flags ← read offset 1
  if !hasFlag flags clauseTable then return []
  let isFat := hasFlag flags fatSection
  let size ← readSize read isFat offset
  if size < 4 || length < offset + size then throw .outOfBounds
  let count := (size - 4) / clauseSize isFat
  let clauses ← readClauses read isFat count (offset + 4)
  if hasFlag flags sectionFollows then
    return clauses ++ (← behind (offset + 4 + count * clauseSize isFat))
  else return clauses

theorem readSections_eq (read : Reader) (length offset : Nat) :
    readSections read length offset =
      if length ≤ offset + 4 then .ok []
      else sectionFrom read length offset (readSections read length) := by
  rw [readSections]
  rfl

theorem readClauses_numberAt (isFat : Bool) (count offset : Nat) :
    readClauses (numberAt data) isFat count offset = clausesAt data isFat count offset := by
  induction count generalizing offset with
  | zero => rfl
  | succ count ih =>
      simp only [readClauses, clausesAt, ih]
      rfl

theorem sectionsAt_succ (sections offset : Nat) :
    sectionsAt data (sections + 1) offset =
      if data.length ≤ offset + 4 then .ok []
      else sectionFrom (numberAt data) data.length offset (sectionsAt data sections) := by
  rw [sectionsAt]
  split
  · rfl
  · simp only [sectionFrom, readClauses_numberAt, readSize]
    congr 1
    funext flags
    cases hasFlag flags fatSection <;> rfl

theorem exists_readSize (isFat : Bool) {offset : Nat} (more : offset + 4 < data.length) :
    ∃ size, ∀ read : Reader, read.Reads data → readSize read isFat offset = .ok size := by
  cases isFat with
  | true =>
      obtain ⟨number, found⟩ :=
        exists_numberAt (show offset + 1 + 4 ≤ data.length by omega)
      exact ⟨number % 0x1000000, fun read reads => by
        rw [readSize, if_pos rfl, reads _ _ (by omega), found]
        rfl⟩
  | false =>
      obtain ⟨number, found⟩ :=
        exists_numberAt (show offset + 1 + 1 ≤ data.length by omega)
      exact ⟨number, fun read reads => by
        rw [readSize, if_neg (by decide), reads _ _ (by omega), found]⟩

/-- A section is too short for what its header says, or it gives clauses and ends the
sections, or it gives clauses and another one follows. -/
theorem sectionFrom_cases {offset : Nat} (more : offset + 4 < data.length) :
    (∀ read : Reader, read.Reads data → ∀ behind,
      sectionFrom read data.length offset behind = .error .outOfBounds) ∨
    ∃ clauses later, offset < later ∧
      (∀ rest, Consecutive data later rest → Consecutive data offset (clauses ++ rest)) ∧
      ((∀ read : Reader, read.Reads data → ∀ behind,
        sectionFrom read data.length offset behind = .ok clauses) ∨
      ∀ read : Reader, read.Reads data → ∀ behind,
        sectionFrom read data.length offset behind = (clauses ++ ·) <$> behind later) := by
  obtain ⟨flags, flagsAt⟩ := exists_numberAt (show offset + 1 ≤ data.length by omega)
  obtain ⟨size, sizeRead⟩ := exists_readSize (hasFlag flags fatSection) more
  have step (read : Reader) (reads : read.Reads data) (behind) :
      sectionFrom read data.length offset behind =
        if !hasFlag flags clauseTable then .ok []
        else if size < 4 || data.length < offset + size then .error .outOfBounds
        else (readClauses read (hasFlag flags fatSection)
            ((size - 4) / clauseSize (hasFlag flags fatSection)) (offset + 4)).bind
          fun clauses => if hasFlag flags sectionFollows
            then (clauses ++ ·) <$> behind (offset + 4 +
              (size - 4) / clauseSize (hasFlag flags fatSection) *
                clauseSize (hasFlag flags fatSection))
            else .ok clauses := by
    have flagsRead : read offset 1 = .ok flags := by rw [reads _ _ (by omega), flagsAt]
    simp only [sectionFrom, flagsRead, sizeRead read reads, bind, Except.bind]
    rfl
  cases isTable : hasFlag flags clauseTable with
  | false =>
      refine .inr ⟨[], offset + 1, by omega, fun rest later => later.mono (by omega), .inl ?_⟩
      intro read reads behind
      rw [step read reads, isTable]
      rfl
  | true =>
      by_cases short : size < 4 || data.length < offset + size
      · refine .inl fun read reads behind => ?_
        rw [step read reads, isTable, if_pos short]
        rfl
      · generalize hasFlag flags fatSection = isFat at step
        generalize countEq : (size - 4) / clauseSize isFat = count at step
        have fits : offset + 4 + count * clauseSize isFat ≤ data.length := by
          have inside : count * clauseSize isFat ≤ size - 4 := countEq ▸ Nat.div_mul_le_self _ _
          simp only [Bool.or_eq_true, decide_eq_true_eq] at short
          omega
        obtain ⟨clauses, _, found, consecutive⟩ := clausesAt_consecutive fits
        refine .inr ⟨clauses, offset + 4 + count * clauseSize isFat, by omega,
          fun rest later => (consecutive rest later).mono (by omega), ?_⟩
        cases follows : hasFlag flags sectionFollows with
        | false =>
            refine .inl fun read reads behind => ?_
            rw [step read reads, isTable, if_neg short, found read reads, follows]
            rfl
        | true =>
            refine .inr fun read reads behind => ?_
            rw [step read reads, isTable, if_neg short, found read reads, follows]
            rfl

/-- The parser asks for no number of a section that the data does not have, it counts as
many sections as there are, and it gives clauses that stand behind the offset, unless the data
is too short. -/
theorem sectionsAt_safe {sections offset : Nat} (enough : data.length ≤ offset + sections) :
    (∀ read : Reader, read.Reads data →
      readSections read data.length offset = sectionsAt data sections offset) ∧
    ((∃ clauses, sectionsAt data sections offset = .ok clauses ∧
        Consecutive data offset clauses) ∨
      sectionsAt data sections offset = .error .outOfBounds) := by
  have whole : Reader.Reads (numberAt data) data := fun _ _ _ => rfl
  induction sections generalizing offset with
  | zero =>
      refine ⟨fun read _ => ?_, .inl ⟨[], rfl, .nil offset⟩⟩
      rw [readSections_eq, if_pos (by omega)]
      rfl
  | succ sections ih =>
      simp only [readSections_eq, sectionsAt_succ]
      by_cases ended : data.length ≤ offset + 4
      · simp only [if_pos ended]
        exact ⟨fun _ _ => trivial, .inl ⟨[], rfl, .nil offset⟩⟩
      simp only [if_neg ended]
      rcases sectionFrom_cases (Nat.lt_of_not_le ended) with
        short | ⟨clauses, later, less, consecutive, last | followed⟩
      · exact ⟨fun read reads => by rw [short read reads, short _ whole _],
          .inr (short _ whole _)⟩
      · refine ⟨fun read reads => by rw [last read reads, last _ whole],
          .inl ⟨clauses, last _ whole _, ?_⟩⟩
        simpa using consecutive [] (.nil later)
      · obtain ⟨same, outcome⟩ := ih (show data.length ≤ later + sections by omega)
        refine ⟨fun read reads => ?_, ?_⟩
        · rw [followed read reads, followed _ whole, same read reads]
        · rw [followed _ whole]
          rcases outcome with ⟨rest, found, behind⟩ | short
          · exact .inl ⟨clauses ++ rest, by rw [found]; rfl, consecutive rest behind⟩
          · exact .inr (by rw [short]; rfl)

/-! ## Bodies -/

theorem Consecutive.exists_clauseAt {start : Nat} {clauses : List Clause}
    (consecutive : Consecutive data start clauses) {clause : Clause} (member : clause ∈ clauses) :
    ∃ isFat place, clauseAt data isFat place = .ok clause := by
  induction consecutive with
  | nil => cases member
  | cons _ _ found _ ih =>
      rcases List.mem_cons.mp member with rfl | later
      · exact ⟨_, _, found⟩
      · exact ih later

theorem canonical_clauseOf
    (flags tryOffset tryLength handlerOffset handlerLength classOrFilter : Nat) :
    (clauseOf flags tryOffset tryLength handlerOffset handlerLength classOrFilter).Canonical := by
  have known : flags &&& 0x7 &&& 0x7 = flags &&& 0x7 := by
    rw [Nat.and_assoc, Nat.and_self]
  have isCatch {clause : Clause} (flagsEq : clause.flags.bits = flags &&& 0x7) :
      clause.kind = .catchClause ↔ flags &&& 0x7 = 0 := by
    rw [← flagsEq]
    exact Clause.kind_eq_catchClause_iff (by rw [flagsEq, known])
  refine ⟨known, ?_, fun ofKind => ?_⟩
  · rw [isCatch rfl]
    simp [clauseOf, Flags.ofBits]
  · simp [clauseOf, Flags.ofBits, (isCatch rfl).mp ofKind]

/-- Every clause that is read is a catch clause with a class and without a filter, or a clause
of another kind without a class. -/
theorem canonical_of_clauseAt {isFat : Bool} {offset : Nat} {clause : Clause}
    (found : clauseAt data isFat offset = .ok clause) : clause.Canonical := by
  unfold clauseAt at found
  cases isFat <;>
    simp only [Bool.false_eq_true, if_false, if_true, except_bind_eq_ok] at found <;>
    obtain ⟨_, _, _, _, _, _, _, _, _, _, _, _, made⟩ := found <;>
    exact Except.ok.inj made ▸ canonical_clauseOf ..

/-- What holds of a body and the data that it was read from. -/
structure ReadFrom (body : Body) (data : List UInt8) : Prop where
  size_le : body.size ≤ data.length
  code : ∃ code, body.code data = .ok code ∧ code.length = body.codeSize
  clauses : Consecutive data (alignedToFour body.size) body.clauses
  hasClauses : body.hasClauses ↔ body.clauses ≠ []
  canonical : ∀ clause ∈ body.clauses, clause.Canonical

theorem readFrom_of_size_le {body : Body} (size_le : body.size ≤ data.length)
    (clauses : Consecutive data (alignedToFour body.size) body.clauses) :
    body.ReadFrom data where
  size_le := size_le
  code := by
    refine ⟨_, if_pos size_le, ?_⟩
    unfold size at size_le
    rw [List.length_take, List.length_drop]
    omega
  clauses := clauses
  hasClauses := by simp [hasClauses]
  canonical clause member :=
    have ⟨_, _, found⟩ := clauses.exists_clauseAt member
    canonical_of_clauseAt found

theorem readFat_eq (reads : read.Reads data) : readFat read data.length = ofFatBytes data := by
  unfold readFat ofFatBytes
  by_cases short : data.length < 12
  · simp only [if_pos short]
    rfl
  · simp only [if_neg short, reads 0 2 (by omega), reads 4 4 (by omega), reads 8 4 (by omega),
      reads 2 2 (by omega), (sectionsAt_safe (Nat.le_add_left _ _)).1 read reads]

/-- A fat header fits into twelve bytes, so its fields are read without asking for more. -/
theorem ofFatBytes_cases (data : List UInt8) :
    (∃ body, ofFatBytes data = .ok body ∧ body.ReadFrom data) ∨
      (∃ size, ofFatBytes data = .error (.malformed (.fatHeaderTooSmall size))) ∨
      ofFatBytes data = .error .outOfBounds := by
  unfold ofFatBytes
  by_cases short : data.length < 12
  · exact .inr (.inr (by simp only [if_pos short]; rfl))
  have known (offset width : Nat) (inside : offset + width ≤ 12) :=
    numberAt_eq_ok (show offset + width ≤ data.length by omega)
  simp only [if_neg short, known 0 2 (by decide), known 4 4 (by decide), known 8 4 (by decide),
    known 2 2 (by decide)]
  generalize Number.ofBytes ((data.drop 0).take 2) = flags
  generalize Number.ofBytes ((data.drop 4).take 4) = codeSize
  generalize Number.ofBytes ((data.drop 8).take 4) = localsToken
  generalize Number.ofBytes ((data.drop 2).take 2) = maxStack
  by_cases small : flags / 0x1000 * 4 < 12
  · exact .inr (.inl ⟨_, by simp only [bind, Except.bind, if_pos small]; rfl⟩)
  by_cases long : data.length < codeSize + flags / 0x1000 * 4
  · exact .inr (.inr (by simp only [bind, Except.bind, if_neg small, if_pos long]; rfl))
  simp only [bind, Except.bind, if_neg small, if_neg long]
  have size_le : codeSize + flags / 0x1000 * 4 ≤ data.length := Nat.le_of_not_lt long
  cases hasFlag flags moreSections with
  | false =>
      exact .inl ⟨_, rfl, readFrom_of_size_le size_le (.nil _)⟩
  | true =>
      rw [Nat.add_comm (flags / 0x1000 * 4) codeSize]
      have enough : data.length ≤ alignedToFour (codeSize + flags / 0x1000 * 4) + data.length :=
        Nat.le_add_left _ _
      rcases (sectionsAt_safe enough).2 with ⟨clauses, found, consecutive⟩ | short
      · simp only [if_true, found]
        exact .inl ⟨_, rfl, readFrom_of_size_le size_le consecutive⟩
      · rw [if_pos rfl, short]
        exact .inr (.inr rfl)

theorem numberAt_first (first : UInt8) (rest : List UInt8) :
    numberAt (first :: rest) 0 1 = .ok first.toNat := by
  simp [numberAt, Number.ofBytes]

theorem readBody_eq (reads : read.Reads data) : readBody read data.length = ofBytes data := by
  cases data with
  | nil => rfl
  | cons first rest =>
      have firstRead : read 0 1 = .ok first.toNat := by
        rw [reads 0 1 (by simp), numberAt_first]
      rw [readBody, ofBytes, if_neg (by simp), firstRead, readFat_eq reads, List.length_cons]
      simp only [bind, Except.bind, Nat.add_lt_add_iff_right]
      rfl

/-- The parser of method bodies asks for no number that the data does not have, and it ends
with a body that was read from the data, with a malformed header or with data that is too
short. -/
theorem ofBytes_reads_within (data : List UInt8) :
    (∀ read : Reader, read.Reads data → readBody read data.length = ofBytes data) ∧
      ((∃ body, ofBytes data = .ok body ∧ body.ReadFrom data) ∨
        (∃ cause, ofBytes data = .error (.malformed cause)) ∨
        ofBytes data = .error .outOfBounds) := by
  refine ⟨fun read reads => readBody_eq reads, ?_⟩
  cases data with
  | nil => exact .inr (.inl ⟨_, rfl⟩)
  | cons first rest =>
      rw [ofBytes]
      by_cases tiny : first.toNat % 4 = tinyFormat
      · rw [if_pos tiny]
        by_cases short : rest.length < first.toNat / 4
        · exact .inr (.inr (if_pos short))
        · refine .inl ⟨_, if_neg short, readFrom_of_size_le ?_ (.nil _)⟩
          simp only [size, List.length_cons]
          omega
      · rw [if_neg tiny]
        by_cases fat : first.toNat % 4 = fatFormat
        · rw [if_pos fat]
          rcases ofFatBytes_cases (first :: rest) with found | ⟨size, refused⟩ | short
          · exact .inl found
          · exact .inr (.inl ⟨_, refused⟩)
          · exact .inr (.inr short)
        · exact .inr (.inl ⟨_, if_neg fat⟩)

end Body

end Cil
