import Cil.Proofs.Code.StackEffects

/-!
# How far shortening goes

Shortening a branch brings everything behind it three bytes closer, so displacements only get
smaller and a branch that has become short stays in reach.  What the encoder estimates of a long
branch is its displacement in the code where that branch alone is short.

One round shortens one branch.  So a draft is settled, with no long branch left that could be
short, unless more branches can be shortened than there are rounds.
-/

namespace Cil

open Stateful
open MonadExcept (ofExcept)

/-! ## Forms -/

/-- A long branch takes five bytes, and two in its short form. -/
theorem Opcode.sizes_of_shortForm? {opcode short : Opcode}
    (isShort : opcode.shortForm? = some short) (label : String) :
    (Item.branch opcode label).size = 5 ∧ (Item.branch short label).size = 2 ∧
      opcode.operand = .int32 ∧ short.operand = .int8 ∧ short.shortForm? = none := by
  obtain ⟨forms, found, rfl⟩ := Option.map_eq_some_iff.mp isShort
  have same : forms.1 = opcode := by simpa using List.find?_some found
  have all : ∀ forms ∈ Opcode.branchForms,
      (Item.branch forms.1 "").size = 5 ∧ (Item.branch forms.2 "").size = 2 ∧
        forms.1.operand = .int32 ∧ forms.2.operand = .int8 ∧ forms.2.shortForm? = none := by
    decide
  exact same ▸ all forms (List.mem_of_find?_eq_some found)

/-! ## Offsets -/

theorem sizeOfItems_set {items : List Item} {index : Nat} {old : Item}
    (found : items[index]? = some old) (new : Item) :
    sizeOfItems (items.set index new) + old.size = sizeOfItems items + new.size := by
  induction items generalizing index with
  | nil => simp at found
  | cons item items ih =>
      cases index with
      | zero =>
          obtain rfl : item = old := by simpa using found
          simp only [List.set_cons_zero, sizeOfItems]
          omega
      | succ index =>
          have rest := ih (by simpa using found)
          simp only [List.set_cons_succ, sizeOfItems]
          omega

theorem offsetOf_succ {items : List Item} {index : Nat} {item : Item}
    (found : items[index]? = some item) :
    offsetOf items (index + 1) = offsetOf items index + item.size := by
  rw [offsetOf, List.take_add_one, found, sizeOfItems_append]
  simp [sizeOfItems, offsetOf]

namespace Layout

theorem isShort_iff {displacement : Int} :
    isShort displacement ↔ -128 ≤ displacement ∧ displacement ≤ 127 := by
  simp [isShort]

namespace Draft

/-- How far a branch leads from its end to a label. -/
def displacement (draft : Draft) (index : Nat) (label : String) : Int :=
  (draft.target label : Int) - (offsetOf draft.items (index + 1) : Nat)

/-- The draft with another branch at a place. -/
def withBranch (draft : Draft) (index : Nat) (opcode : Opcode) (label : String) : Draft :=
  { draft with items := draft.items.set index (.branch opcode label) }

/-- A long branch that could be short: with that branch alone in its short form, its displacement
fits into a byte. -/
def Shortenable (draft : Draft) (index : Nat) : Prop :=
  ∃ opcode short label, draft.items[index]? = some (.branch opcode label) ∧
    opcode.shortForm? = some short ∧
    isShort ((draft.withBranch index short label).displacement index label)

/-- No branch is left long that could be short. -/
def Settled (draft : Draft) : Prop :=
  ∀ index, ¬ draft.Shortenable index

/-- A long branch and its short form. -/
structure LongAt (draft : Draft) (index : Nat) (opcode short : Opcode) (label : String) : Prop where
  found : draft.items[index]? = some (.branch opcode label)
  form : opcode.shortForm? = some short

end Draft

section Shortening

variable {draft : Draft} {index : Nat} {opcode short : Opcode} {label : String}
  (long : draft.LongAt index opcode short label)

include long

/-- Places up to the branch stay, and those behind it move by three bytes. -/
theorem offsetOf_withBranch (mark : Mark) :
    (offsetOf draft.items mark = offsetOf (draft.withBranch index short label).items mark ∧
        offsetOf draft.items mark ≤ offsetOf draft.items index) ∨
      (offsetOf draft.items mark = offsetOf (draft.withBranch index short label).items mark + 3 ∧
        offsetOf draft.items index + 5 ≤ offsetOf draft.items mark) := by
  obtain ⟨longSize, shortSize, _⟩ := Opcode.sizes_of_shortForm? long.form label
  rcases Nat.lt_or_ge index mark with behind | upTo
  · refine .inr ⟨?_, ?_⟩
    · have taken : (draft.items.take mark)[index]? = some (.branch opcode label) := by
        rw [List.getElem?_take_of_lt behind, long.found]
      have sizes := sizeOfItems_set taken (.branch short label)
      simp only [offsetOf, Draft.withBranch, List.take_set]
      omega
    · have next := offsetOf_succ long.found
      have further := offsetOf_mono draft.items (show index + 1 ≤ mark from behind)
      omega
  · refine .inl ⟨?_, offsetOf_mono draft.items upTo⟩
    simp only [offsetOf, Draft.withBranch, List.take_set]
    rw [List.set_eq_of_length_le (by rw [List.length_take]; omega)]

theorem target_withBranch (other : String) :
    (draft.target other = (draft.withBranch index short label).target other ∧
        draft.target other ≤ offsetOf draft.items index) ∨
      (draft.target other = (draft.withBranch index short label).target other + 3 ∧
        offsetOf draft.items index + 5 ≤ draft.target other) := by
  cases known : draft.labels.lookup other with
  | none =>
      have target (items : List Item) : { draft with items }.target other = 0 := by
        simp only [Draft.target, known]
      have first : draft.target other = 0 := target _
      have second : (draft.withBranch index short label).target other = 0 := target _
      exact .inl ⟨first.trans second.symm, first ▸ Nat.zero_le _⟩
  | some mark =>
      have target (items : List Item) :
          { draft with items }.target other = offsetOf items mark := by
        simp only [Draft.target, known]
      have first : draft.target other = offsetOf draft.items mark := target _
      have second : (draft.withBranch index short label).target other =
          offsetOf (draft.withBranch index short label).items mark := target _
      rw [first, second]
      exact offsetOf_withBranch long mark

/-- What is estimated of a long branch is its displacement where it alone is short. -/
theorem shortDisplacement_eq :
    shortDisplacement (offsetOf draft.items index) (draft.target label) =
      (draft.withBranch index short label).displacement index label := by
  obtain ⟨longSize, _⟩ := Opcode.sizes_of_shortForm? long.form label
  have next := offsetOf_succ long.found
  have ends := offsetOf_withBranch long (index + 1)
  have target := target_withBranch long label
  simp only [shortDisplacement, Draft.displacement]
  split <;> omega

/-- A displacement that fits into a byte still does when another branch is shortened. -/
theorem isShort_withBranch (other : Nat) (name : String)
    (fits : isShort (draft.displacement other name)) :
    isShort ((draft.withBranch index short label).displacement other name) := by
  have ends := offsetOf_withBranch long (other + 1)
  have target := target_withBranch long name
  rw [isShort_iff, Draft.displacement] at fits ⊢
  omega

end Shortening

/-! ## Searching -/

section Searching

variable {draft : Draft} {items : List Item} {start offset : Nat}

/-- The search looks at the items behind the first one, and gives the first one if that is a long
branch that could be short. -/
theorem firstShortenable_cons {first : Item} {found? : Option (Nat × Item)}
    (ran : firstShortenable draft start (placedFrom offset (first :: items)) = .ok found?) :
    (∃ opcode short label, first = .branch opcode label ∧ opcode.shortForm? = some short ∧
      isShort (shortDisplacement offset (draft.target label)) ∧
      found? = some (start, .branch short label)) ∨
    firstShortenable draft (start + 1) (placedFrom (offset + first.size) items) = .ok found? ∧
      ∀ opcode short label, first = .branch opcode label → opcode.shortForm? = some short →
        ¬ isShort (shortDisplacement offset (draft.target label)) := by
  cases first with
  | bytes content => exact .inr ⟨ran, fun _ _ _ other => nomatch other⟩
  | switch labels => exact .inr ⟨ran, fun _ _ _ other => nomatch other⟩
  | branch opcode label =>
      rw [placedFrom, firstShortenable] at ran
      cases form : opcode.shortForm? with
      | none =>
          rw [form] at ran
          refine .inr ⟨ran, ?_⟩
          rintro _ short _ ⟨⟩ other
          rw [form] at other
          cases other
      | some short =>
          rw [form] at ran
          obtain ⟨target, located, ran⟩ := except_bind_eq_ok.mp ran
          obtain ⟨rfl, _⟩ := Draft.offsetOfLabel_eq_ok located
          obtain ⟨_, _, ran⟩ := except_bind_eq_ok.mp ran
          obtain ⟨_, _, ran⟩ := except_bind_eq_ok.mp ran
          obtain ⟨later, laterRan, ran⟩ := except_bind_eq_ok.mp ran
          split at ran
          · rename_i fits
            cases ran
            exact .inl ⟨opcode, short, label, rfl, form, fits, rfl⟩
          · rename_i far
            cases ran
            refine .inr ⟨laterRan, ?_⟩
            rintro _ _ _ ⟨⟩ _
            exact far

theorem firstShortenable_some {place : Nat} {item : Item}
    (ran : firstShortenable draft start (placedFrom offset items) = .ok (some (place, item))) :
    ∃ step opcode short label, place = start + step ∧
      items[step]? = some (.branch opcode label) ∧ opcode.shortForm? = some short ∧
      item = .branch short label ∧
      isShort (shortDisplacement (offset + offsetOf items step) (draft.target label)) := by
  induction items generalizing start offset with
  | nil => cases ran
  | cons first items ih =>
      rcases firstShortenable_cons ran with ⟨opcode, short, label, rfl, form, fits, found⟩ |
        ⟨laterRan, _⟩
      · cases found
        exact ⟨0, opcode, short, label, rfl, rfl, form, rfl, fits⟩
      · obtain ⟨step, opcode, short, label, rfl, found, form, rfl, fits⟩ := ih laterRan
        refine ⟨step + 1, opcode, short, label, by omega, found, form, rfl, ?_⟩
        rwa [Nat.add_assoc] at fits

theorem firstShortenable_none
    (ran : firstShortenable draft start (placedFrom offset items) = .ok none)
    {step : Nat} {opcode short : Opcode} {label : String}
    (found : items[step]? = some (.branch opcode label)) (form : opcode.shortForm? = some short) :
    ¬ isShort (shortDisplacement (offset + offsetOf items step) (draft.target label)) := by
  induction items generalizing start offset step with
  | nil => simp at found
  | cons first items ih =>
      rcases firstShortenable_cons ran with ⟨_, _, _, _, _, _, given⟩ | ⟨laterRan, far⟩
      · cases given
      · cases step with
        | zero => exact far opcode short label (by simpa using found) form
        | succ step =>
            have behind := ih laterRan (by simpa using found)
            rwa [Nat.add_assoc] at behind

end Searching

/-! ## Drafts that can be laid out -/

theorem getElem?_placedFrom (offset : Nat) (items : List Item) (index : Nat) :
    (placedFrom offset items)[index]? =
      items[index]?.map fun item => (offset + offsetOf items index, item) := by
  induction items generalizing offset index with
  | nil => simp [placedFrom]
  | cons item items ih =>
      cases index with
      | zero => rfl
      | succ index =>
          have rest := ih (offset + item.size) index
          simp only [Nat.add_assoc] at rest
          exact rest

namespace Draft

/-- A label that can be led to. -/
def Reaches (draft : Draft) (label : String) : Prop :=
  (∃ mark, draft.labels.lookup label = some mark) ∧ draft.target label < 0x80000000

/-- An item that can be laid out at its place. -/
def Places (draft : Draft) (index : Nat) : Item → Prop
  | .bytes _ => True
  | .branch opcode label =>
      draft.Reaches label ∧ offsetOf draft.items (index + 1) < 0x80000000 ∧
        (opcode.operand = .int8 → isShort (draft.displacement index label))
  | .switch labels =>
      offsetOf draft.items (index + 1) < 0x80000000 ∧ ∀ label ∈ labels, draft.Reaches label

def LaysOut (draft : Draft) : Prop :=
  ∀ index item, draft.items[index]? = some item → draft.Places index item

variable {draft : Draft}

theorem checkPosition_bind_ok_iff {position : Nat} {failure : Malformation} {α : Type}
    {next : Except Error α} {result : α} :
    (do checkPosition position failure; next : Except Error α) = .ok result ↔
      position < 0x80000000 ∧ next = .ok result := by
  unfold checkPosition
  split
  · rename_i inside
    simp [inside, bind, Except.bind]
  · rename_i outside
    exact ⟨nofun, fun ⟨inside, _⟩ => absurd inside outside⟩

theorem reached_bind_ok_iff {label : String} {α : Type} {next : Nat → Except Error α}
    {result : α} {failure : Malformation} :
    (do
      let target ← draft.offsetOfLabel label
      checkPosition target failure
      next target : Except Error α) = .ok result ↔
      draft.Reaches label ∧ next (draft.target label) = .ok result := by
  unfold Reaches offsetOfLabel Draft.target
  cases draft.labels.lookup label with
  | none => simp [bind, Except.bind]
  | some mark => exact checkPosition_bind_ok_iff.trans (by simp)

theorem exists_branchBytes_iff {index : Nat} {opcode : Opcode} {label : String}
    (found : draft.items[index]? = some (.branch opcode label)) :
    (∃ bytes, branchBytes draft (offsetOf draft.items index, .branch opcode label) = .ok bytes) ↔
      draft.Places index (.branch opcode label) := by
  unfold branchBytes Places displacement
  rw [offsetOf_succ found]
  simp only [reached_bind_ok_iff, checkPosition_bind_ok_iff, exists_and_left]
  refine and_congr_right fun _ => and_congr_right fun _ => ?_
  split
  · rename_i short
    split
    · rename_i fits
      simpa [short, pure, Except.pure] using fits
    · rename_i far
      simpa [short, throw, throwThe, MonadExceptOf.throw] using far
  · rename_i long
    exact ⟨fun _ short => absurd short long, fun _ => ⟨_, rfl⟩⟩

theorem exists_itemBytes_iff {index : Nat} {item : Item} (found : draft.items[index]? = some item) :
    (∃ bytes, itemBytes draft (offsetOf draft.items index, item) = .ok bytes) ↔
      draft.Places index item := by
  cases item with
  | bytes content => exact ⟨fun _ => trivial, fun _ => ⟨content, rfl⟩⟩
  | branch opcode label => exact exists_branchBytes_iff found
  | switch labels =>
      unfold itemBytes Places
      rw [offsetOf_succ found]
      simp only [checkPosition_bind_ok_iff, exists_and_left]
      refine and_congr_right fun _ => ?_
      have each : (∀ label ∈ labels, draft.Reaches label) ↔ ∃ displacements,
          (labels.mapM fun label => do
            let target ← draft.offsetOfLabel label
            checkPosition target .labelTooFar
            return Number.toBytes 4 (Int32.ofInt ((target : Int) - ((offsetOf draft.items index +
              (Item.switch labels).size : Nat) : Int))).toUInt32.toNat : Except Error _) =
            .ok displacements := by
        rw [exists_except_mapM_iff]
        refine forall₂_congr fun label _ => ?_
        simp only [reached_bind_ok_iff, exists_and_left, iff_self_and]
        exact fun _ => ⟨_, rfl⟩
      rw [each]
      simp only [except_bind_eq_ok]
      exact ⟨fun ⟨_, displacements, ran, _⟩ => ⟨displacements, ran⟩,
        fun ⟨displacements, ran⟩ => ⟨_, displacements, ran, rfl⟩⟩

/-- A draft has bytes if every item can be laid out at its place. -/
theorem exists_bytes_iff : (∃ code, draft.bytes = .ok code) ↔ draft.LaysOut := by
  have each : (∃ bytes, draft.placed.mapM (itemBytes draft) = .ok bytes) ↔ draft.LaysOut := by
    rw [exists_except_mapM_iff]
    constructor
    · intro laid index item found
      have here : draft.placed[index]? = some (offsetOf draft.items index, item) := by
        rw [placed, getElem?_placedFrom, found, Nat.zero_add]
        rfl
      exact (exists_itemBytes_iff found).mp (laid _ (List.mem_of_getElem? here))
    · rintro laid ⟨offset, item⟩ member
      obtain ⟨index, found⟩ := List.getElem?_of_mem member
      rw [placed, getElem?_placedFrom] at found
      obtain ⟨_, found, same⟩ := Option.map_eq_some_iff.mp found
      cases same
      rw [Nat.zero_add]
      exact (exists_itemBytes_iff found).mpr (laid index _ found)
  rw [← each]
  constructor
  · rintro ⟨code, ran⟩
    obtain ⟨_, _, ran⟩ := except_bind_eq_ok.mp ran
    obtain ⟨bytes, ran, _⟩ := except_bind_eq_ok.mp ran
    exact ⟨bytes, ran⟩
  · rintro ⟨bytes, ran⟩
    have branches : ∀ placed ∈ draft.placed, ∃ bytes, branchBytes draft placed = .ok bytes := by
      rintro ⟨offset, item⟩ member
      have laid := exists_except_mapM_iff.mp ⟨bytes, ran⟩ _ member
      cases item with
      | bytes content => exact ⟨[], rfl⟩
      | branch opcode label => exact laid
      | switch labels => exact ⟨[], rfl⟩
    exact ⟨_, except_bind_eq_ok.mpr ⟨(), except_forM_discard_eq_ok branches,
      except_bind_eq_ok.mpr ⟨bytes, ran, rfl⟩⟩⟩

end Draft

/-! ## Rounds -/

theorem exists_firstShortenable {draft : Draft} {items : List Item} {start offset : Nat}
    (reached : ∀ step opcode label, items[step]? = some (.branch opcode label) →
      opcode.shortForm?.isSome →
        draft.Reaches label ∧ offset + offsetOf items step + 2 < 0x80000000) :
    ∃ found?, firstShortenable draft start (placedFrom offset items) = .ok found? := by
  induction items generalizing start offset with
  | nil => exact ⟨none, rfl⟩
  | cons first items ih =>
      obtain ⟨later, laterRan⟩ : ∃ found?, firstShortenable draft (start + 1)
          (placedFrom (offset + first.size) items) = .ok found? :=
        ih fun step opcode label found isLong => by
          have behind := reached (step + 1) opcode label found isLong
          rwa [Nat.add_assoc offset]
      cases first with
      | bytes content => exact ⟨later, laterRan⟩
      | switch labels => exact ⟨later, laterRan⟩
      | branch opcode label =>
          rw [placedFrom, firstShortenable]
          cases form : opcode.shortForm? with
          | none => exact ⟨later, laterRan⟩
          | some short =>
              obtain ⟨reaches, inside⟩ := reached 0 opcode label rfl (by rw [form]; rfl)
              exact ⟨_, Draft.reached_bind_ok_iff.mpr ⟨reaches,
                Draft.checkPosition_bind_ok_iff.mpr
                  ⟨inside, except_bind_eq_ok.mpr ⟨later, laterRan, rfl⟩⟩⟩⟩

/-- What the search finds in a whole draft: a branch that becomes short, or that none is left. -/
inductive Search (draft : Draft) : Option (Nat × Item) → Prop
  | found {index : Nat} {opcode short : Opcode} {label : String}
      (long : draft.LongAt index opcode short label)
      (fits : isShort ((draft.withBranch index short label).displacement index label)) :
      Search draft (some (index, .branch short label))
  | settled (settled : draft.Settled) : Search draft none

theorem search_of_firstShortenable {draft : Draft} {found? : Option (Nat × Item)}
    (ran : firstShortenable draft 0 draft.placed = .ok found?) : Search draft found? := by
  cases found? with
  | none =>
      refine .settled fun index => ?_
      rintro ⟨opcode, short, label, found, form, fits⟩
      have far := firstShortenable_none ran found form
      rw [Nat.zero_add, shortDisplacement_eq ⟨found, form⟩] at far
      exact far fits
  | some place =>
      obtain ⟨place, item⟩ := place
      obtain ⟨index, opcode, short, label, rfl, found, form, rfl, fits⟩ := firstShortenable_some ran
      rw [Nat.zero_add, shortDisplacement_eq ⟨found, form⟩] at fits
      rw [Nat.zero_add]
      exact .found ⟨found, form⟩ fits

/-- A number of rounds of shortening, each of which shortens one branch. -/
inductive Rounds : Nat → Draft → Draft → Prop
  | done (draft : Draft) : Rounds 0 draft draft
  | round {count index : Nat} {draft final : Draft} {opcode short : Opcode} {label : String}
      (ran : firstShortenable draft 0 draft.placed = .ok (some (index, .branch short label)))
      (long : draft.LongAt index opcode short label)
      (fits : isShort ((draft.withBranch index short label).displacement index label))
      (rounds : Rounds count (draft.withBranch index short label) final) :
      Rounds (count + 1) draft final

theorem rounds_of_shorten {limit : Nat} {draft final : Draft}
    (ran : shorten limit draft = .ok final) :
    ∃ count, count ≤ limit ∧ Rounds count draft final ∧
      (count < limit → firstShortenable final 0 final.placed = .ok none) := by
  induction limit generalizing draft with
  | zero =>
      cases ran
      exact ⟨0, Nat.le_refl _, .done _, nofun⟩
  | succ limit ih =>
      obtain ⟨found?, searched, ran⟩ := except_bind_eq_ok.mp ran
      cases search_of_firstShortenable searched with
      | settled settled =>
          cases ran
          exact ⟨0, Nat.zero_le _, .done _, fun _ => searched⟩
      | found long fits =>
          obtain ⟨count, le, rounds, ended⟩ := ih ran
          exact ⟨count + 1, Nat.succ_le_succ le, .round searched long fits rounds,
            fun lt => ended (Nat.lt_of_succ_lt_succ lt)⟩

theorem shorten_of_rounds {count limit : Nat} {draft final : Draft}
    (rounds : Rounds count draft final) (le : count ≤ limit)
    (ended : count < limit → firstShortenable final 0 final.placed = .ok none) :
    shorten limit draft = .ok final := by
  induction rounds generalizing limit with
  | done draft =>
      cases limit with
      | zero => rfl
      | succ limit => exact except_bind_eq_ok.mpr ⟨none, ended (Nat.succ_pos _), rfl⟩
  | round ran long fits rounds ih =>
      cases limit with
      | zero => cases le
      | succ limit =>
          exact except_bind_eq_ok.mpr ⟨_, ran, ih (Nat.le_of_succ_le_succ le)
            fun lt => ended (Nat.succ_lt_succ lt)⟩

/-! ## What rounds keep -/

/-- Whether an item is a branch that has a short form. -/
def isLong : Item → Bool
  | .branch opcode _ => opcode.shortForm?.isSome
  | _ => false

namespace Draft

/-- How many branches have a short form. -/
def longBranches (draft : Draft) : Nat :=
  draft.items.countP isLong

/-- Code in which branches have become short, all of them in reach. -/
structure ShrunkTo (draft final : Draft) : Prop where
  labels : final.labels = draft.labels
  items : ∀ index, final.items[index]? = draft.items[index]? ∨
    ∃ opcode short label, draft.LongAt index opcode short label ∧
      final.items[index]? = some (.branch short label) ∧
      isShort (final.displacement index label)

end Draft

section Branch

variable {draft : Draft} {index : Nat} {opcode short : Opcode} {label : String}

theorem getElem?_withBranch_of_ne {other : Nat} (apart : other ≠ index) :
    (draft.withBranch index short label).items[other]? = draft.items[other]? :=
  List.getElem?_set_ne (Ne.symm apart)

variable (long : draft.LongAt index opcode short label)

include long

theorem getElem?_withBranch :
    (draft.withBranch index short label).items[index]? = some (.branch short label) := by
  obtain ⟨inside, _⟩ := List.getElem?_eq_some_iff.mp long.found
  exact List.getElem?_set_self inside

theorem longBranches_withBranch :
    draft.longBranches = (draft.withBranch index short label).longBranches + 1 := by
  obtain ⟨inside, found⟩ := List.getElem?_eq_some_iff.mp long.found
  obtain ⟨_, _, _, _, noForm⟩ := Opcode.sizes_of_shortForm? long.form label
  have some : 0 < draft.items.countP isLong := by
    refine List.countP_pos_iff.mpr ⟨_, List.mem_of_getElem? long.found, ?_⟩
    simp [isLong, long.form]
  simp only [Draft.longBranches, Draft.withBranch, List.countP_set inside, found]
  simp only [isLong, long.form, noForm, Option.isSome_some, Option.isSome_none, if_true,
    Bool.false_eq_true, if_false]
  omega

theorem reaches_withBranch {name : String} (reaches : draft.Reaches name) :
    (draft.withBranch index short label).Reaches name := by
  have target := target_withBranch long name
  have inside := reaches.2
  exact ⟨reaches.1, by omega⟩

/-- Shortening one branch leaves every item where it can be laid out. -/
theorem laysOut_withBranch
    (fits : isShort ((draft.withBranch index short label).displacement index label))
    (laid : draft.LaysOut) : (draft.withBranch index short label).LaysOut := by
  intro place item found
  by_cases here : place = index
  · subst here
    rw [getElem?_withBranch long] at found
    cases found
    obtain ⟨reaches, inside, _⟩ := laid place _ long.found
    have ends := offsetOf_withBranch long (place + 1)
    exact ⟨reaches_withBranch long reaches, by omega, fun _ => fits⟩
  · rw [getElem?_withBranch_of_ne here] at found
    have places := laid place item found
    have ends := offsetOf_withBranch long (place + 1)
    cases item with
    | bytes content => trivial
    | branch opcode name =>
        obtain ⟨reaches, inside, near⟩ := places
        exact ⟨reaches_withBranch long reaches, by omega,
          fun kind => isShort_withBranch long place name (near kind)⟩
    | switch names =>
        obtain ⟨inside, reaches⟩ := places
        exact ⟨by omega, fun name member => reaches_withBranch long (reaches name member)⟩

end Branch

namespace Rounds

variable {count more : Nat} {draft final full : Draft}

theorem trans (rounds : Rounds count draft final) (others : Rounds more final full) :
    Rounds (count + more) draft full := by
  induction rounds with
  | done draft => rwa [Nat.zero_add]
  | round ran long fits rounds ih =>
      rw [Nat.add_right_comm]
      exact .round ran long fits (ih others)

theorem longBranches_eq (rounds : Rounds count draft final) :
    draft.longBranches = final.longBranches + count := by
  induction rounds with
  | done draft => rfl
  | round ran long fits rounds ih =>
      have once := longBranches_withBranch long
      omega

theorem laysOut (rounds : Rounds count draft final) (laid : draft.LaysOut) : final.LaysOut := by
  induction rounds with
  | done draft => exact laid
  | round ran long fits rounds ih => exact ih (laysOut_withBranch long fits laid)

theorem offsetOf_le (rounds : Rounds count draft final) (mark : Mark) :
    offsetOf final.items mark ≤ offsetOf draft.items mark := by
  induction rounds with
  | done draft => exact Nat.le_refl _
  | round ran long fits rounds ih =>
      have once := offsetOf_withBranch long mark
      omega

theorem isShort_displacement (rounds : Rounds count draft final) {index : Nat} {label : String}
    (fits : isShort (draft.displacement index label)) :
    isShort (final.displacement index label) := by
  induction rounds with
  | done draft => exact fits
  | round ran long near rounds ih => exact ih (isShort_withBranch long index label fits)

theorem shrunk (rounds : Rounds count draft final) : draft.ShrunkTo final := by
  induction rounds with
  | done draft => exact ⟨rfl, fun _ => .inl rfl⟩
  | @round count index draft final opcode short label ran long fits rounds ih =>
      refine ⟨ih.labels, fun place => ?_⟩
      by_cases here : place = index
      · subst here
        refine .inr ⟨opcode, short, label, long, ?_, rounds.isShort_displacement fits⟩
        rcases ih.items place with same | ⟨_, _, _, again, _⟩
        · rw [same, getElem?_withBranch long]
        · -- A branch becomes short once.
          have once := again.found
          rw [getElem?_withBranch long] at once
          cases once
          have form := again.form
          rw [(Opcode.shortForm?_eq_some long.form).1] at form
          cases form
      · rcases ih.items place with same | ⟨opcode, short, name, again, found, near⟩
        · exact .inl (same.trans (getElem?_withBranch_of_ne here))
        · refine .inr ⟨opcode, short, name, ⟨?_, again.form⟩, found, near⟩
          rw [← getElem?_withBranch_of_ne here]
          exact again.found

end Rounds

/-! ## Enough rounds -/

theorem exists_search {draft : Draft} (laid : draft.LaysOut) :
    ∃ found?, firstShortenable draft 0 draft.placed = .ok found? := by
  refine exists_firstShortenable fun index opcode label found isLong => ?_
  obtain ⟨short, form⟩ := Option.isSome_iff_exists.mp isLong
  obtain ⟨size, _⟩ := Opcode.sizes_of_shortForm? form label
  obtain ⟨reaches, inside, _⟩ := laid index _ found
  have ends := offsetOf_succ found
  exact ⟨reaches, by omega⟩

/-- Code that can be laid out can be shortened. -/
theorem exists_shorten {draft : Draft} (laid : draft.LaysOut) (limit : Nat) :
    ∃ final, shorten limit draft = .ok final := by
  induction limit generalizing draft with
  | zero => exact ⟨draft, rfl⟩
  | succ limit ih =>
      obtain ⟨found?, searched⟩ := exists_search laid
      cases search_of_firstShortenable searched with
      | settled settled => exact ⟨draft, except_bind_eq_ok.mpr ⟨none, searched, rfl⟩⟩
      | found long fits =>
          obtain ⟨final, ran⟩ := ih (laysOut_withBranch long fits laid)
          exact ⟨final, except_bind_eq_ok.mpr ⟨_, searched, ran⟩⟩

theorem settled_of_firstShortenable {draft : Draft}
    (ended : firstShortenable draft 0 draft.placed = .ok none) : draft.Settled := by
  cases search_of_firstShortenable ended with
  | settled settled => exact settled

/-- With a round for each branch, shortening ends because no branch is left. -/
theorem firstShortenable_of_many {draft final : Draft} {count : Nat} (laid : final.LaysOut)
    (rounds : Rounds count draft final) (many : draft.longBranches ≤ count) :
    firstShortenable final 0 final.placed = .ok none := by
  obtain ⟨found?, searched⟩ := exists_search laid
  cases search_of_firstShortenable searched with
  | settled settled => exact searched
  | found long fits =>
      have before := rounds.longBranches_eq
      have some := longBranches_withBranch long
      omega

/-- Shortening settles the code unless more branches become short in the end than there are
rounds. -/
theorem exists_full_of_shorten {limit : Nat} {draft final : Draft}
    (ran : shorten limit draft = .ok final) (laid : final.LaysOut) :
    ∃ full : Draft, (∀ rounds, draft.items.length ≤ rounds → shorten rounds draft = .ok full) ∧
      full.Settled ∧
      (final.Settled ↔ draft.longBranches ≤ full.longBranches + limit) := by
  obtain ⟨count, countLe, rounds, ended⟩ := rounds_of_shorten ran
  obtain ⟨full, fullRan⟩ := exists_shorten laid final.items.length
  obtain ⟨more, moreLe, others, othersEnded⟩ := rounds_of_shorten fullRan
  have all := rounds.trans others
  have finalLongs : final.longBranches ≤ final.items.length := List.countP_le_length
  have draftLongs : draft.longBranches ≤ draft.items.length := List.countP_le_length
  have countEq := rounds.longBranches_eq
  have moreEq := others.longBranches_eq
  have fullEnded : firstShortenable full 0 full.placed = .ok none := by
    rcases Nat.lt_or_ge more final.items.length with few | many
    · exact othersEnded few
    · exact firstShortenable_of_many (others.laysOut laid) others (by omega)
  have fullSettled := settled_of_firstShortenable fullEnded
  refine ⟨full, fun limit many => ?_, fullSettled, fun settled => ?_, fun few => ?_⟩
  · exact shorten_of_rounds all (by omega) fun _ => fullEnded
  · cases others with
    | done => omega
    | round ran long fits others => exact absurd ⟨_, _, _, long.found, long.form, fits⟩ (settled _)
  · rcases Nat.lt_or_ge count limit with early | late
    · exact settled_of_firstShortenable (ended early)
    · have none : more = 0 := by omega
      subst none
      cases others
      exact fullSettled

end Layout

/-! ## Finishing -/

namespace Encoder

/-- What an encoder lays out: its items, with a return behind them if a branch leads to the end. -/
def drafted (encoder : Encoder) : Layout.Draft :=
  { items := encoder.items.toList ++ encoder.ending.map Emitted.item
    labels := encoder.labels.toList }

/-- What finishing code does behind its end. -/
theorem finish_eq_ok_iff {before after : Encoder} {code : EmittedCode} :
    finish before = .ok code after ↔
      before.openBlocks = [] ∧ terminate before = .ok () after ∧
      ∃ draft : Layout.Draft,
        (if before.shortens then Layout.shorten Layout.maxRounds before.drafted
          else .ok before.drafted) = .ok draft ∧
        draft.bytes = .ok code.code ∧
        after.clauses.toList.forM (Layout.checkClause draft.items) = .ok () ∧
        code.maxStack = after.maxDepth ∧
        code.labels = draft.labels.map (fun (label, mark) => (label, offsetOf draft.items mark)) ∧
        code.clauses = after.clauses.toList.map (Layout.clauseOf draft.items) := by
  unfold finish
  rw [get_bind_run]
  cases blocks : before.openBlocks with
  | cons block others =>
      simp only [List.cons_ne_nil, false_and, iff_false]
      intro ran
      obtain ⟨_, _, _, ran⟩ := bind_eq_ok.mp ran
      obtain ⟨_, _, failed, _⟩ := bind_eq_ok.mp ran
      exact absurd failed throw_ne_ok
  | nil =>
      simp only [true_and]
      constructor
      · intro ran
        obtain ⟨⟨⟩, ended, terminated, ran⟩ := bind_eq_ok.mp ran
        rw [get_bind_run] at ran
        obtain ⟨draft, _, draftRan, ran⟩ := bind_eq_ok.mp ran
        obtain ⟨bytes, _, bytesRan, ran⟩ := bind_eq_ok.mp ran
        obtain ⟨⟨⟩, _, checkRan, ran⟩ := bind_eq_ok.mp ran
        cases ran
        obtain ⟨drafted, rfl⟩ := ofExcept_eq_ok.mp draftRan
        obtain ⟨laid, rfl⟩ := ofExcept_eq_ok.mp bytesRan
        obtain ⟨checked, rfl⟩ := ofExcept_eq_ok.mp checkRan
        have appends := appends_of_terminate terminated
        refine ⟨terminated, draft, ?_, laid, checked, rfl, rfl, rfl⟩
        rw [appends.shortens, appends.items, appends.labels] at drafted
        exact drafted
      · rintro ⟨terminated, draft, drafted, laid, checked, maxStack, labels, clauses⟩
        have appends := appends_of_terminate terminated
        refine bind_eq_ok.mpr ⟨(), after, terminated, ?_⟩
        rw [get_bind_run, appends.shortens, appends.items, appends.labels]
        refine bind_eq_ok.mpr ⟨draft, after, ofExcept_eq_ok.mpr ⟨drafted, rfl⟩, ?_⟩
        refine bind_eq_ok.mpr ⟨code.code, after, ofExcept_eq_ok.mpr ⟨laid, rfl⟩, ?_⟩
        refine bind_eq_ok.mpr ⟨(), after, ofExcept_eq_ok.mpr ⟨checked, rfl⟩, ?_⟩
        rw [← maxStack, ← labels, ← clauses]
        rfl

/-- Whether branches may be short does not matter to the end of the code. -/
theorem terminate_shortens {before after : Encoder} (enabled : Bool)
    (ran : terminate before = .ok () after) :
    terminate { before with shortens := enabled } = .ok () { after with shortens := enabled } := by
  unfold terminate at ran ⊢
  rw [get_bind_run] at ran ⊢
  have same : { before with shortens := enabled }.branchesToEnd = before.branchesToEnd := rfl
  rw [same]
  split at ran
  · rename_i leaves
    rw [if_pos leaves]
    obtain ⟨⟨⟩, pushed, pushRan, ran⟩ := bind_eq_ok.mp ran
    obtain ⟨⟨⟩, tracked, trackRan, ran⟩ := bind_eq_ok.mp ran
    obtain ⟨kept, rfl⟩ := trackStack_eq_ok.mp trackRan
    cases pushRan
    cases ran
    exact bind_eq_ok.mpr ⟨(), _, rfl,
      bind_eq_ok.mpr ⟨(), _, trackStack_eq_ok.mpr ⟨kept, rfl⟩, rfl⟩⟩
  · rename_i stays
    rw [if_neg stays]
    cases ran
    rfl

theorem forM_checkClause_mono {items shorter : List Item} {clauses : List MarkedClause}
    (le : ∀ mark, offsetOf shorter mark ≤ offsetOf items mark)
    (checked : clauses.forM (Layout.checkClause items) = .ok ()) :
    clauses.forM (Layout.checkClause shorter) = .ok () := by
  induction clauses with
  | nil => rfl
  | cons clause clauses ih =>
      obtain ⟨⟨⟩, first, rest⟩ := except_bind_eq_ok.mp checked
      refine except_bind_eq_ok.mpr ⟨(), ?_, ih rest⟩
      unfold Layout.checkClause at first ⊢
      dsimp only at first ⊢
      split at first
      · rename_i inside
        rw [if_pos]
        rw [List.all_eq_true] at inside ⊢
        intro mark member
        have bound := inside mark member
        simp only [decide_eq_true_eq] at bound ⊢
        exact Nat.lt_of_le_of_lt (le mark) bound
      · cases first

/-- Code that can be finished with its branches as they are can be finished with shorter ones. -/
theorem exists_finish_shortening {encoder after : Encoder} {code : EmittedCode}
    (ran : finish { encoder with shortens := false } = .ok code after) :
    ∃ code after, finish { encoder with shortens := true } = .ok code after := by
  obtain ⟨closed, terminated, draft, drafted, laid, checked, _⟩ := finish_eq_ok_iff.mp ran
  cases drafted
  have laysOut := Layout.Draft.exists_bytes_iff.mp ⟨_, laid⟩
  obtain ⟨final, shortened⟩ := Layout.exists_shorten laysOut Layout.maxRounds
  obtain ⟨_, _, rounds, _⟩ := Layout.rounds_of_shorten shortened
  obtain ⟨bytes, finalLaid⟩ := Layout.Draft.exists_bytes_iff.mpr (rounds.laysOut laysOut)
  have terminatedShort := terminate_shortens true terminated
  have finalChecked := forM_checkClause_mono rounds.offsetOf_le checked
  exact ⟨{ code := bytes, maxStack := after.maxDepth, labels := _, clauses := _ }, _,
    finish_eq_ok_iff.mpr ⟨closed, terminatedShort, final, shortened, finalLaid, finalChecked,
      rfl, rfl, rfl⟩⟩

/-- The code that an encoder gives for a draft of its items with branches in their short forms. -/
structure ShortensTo (encoder : Encoder) (code : EmittedCode) (final : Layout.Draft) : Prop where
  shrunk : encoder.drafted.ShrunkTo final
  bytes : final.bytes = .ok code.code
  labels : code.labels = final.labels.map fun (label, mark) => (label, offsetOf final.items mark)

/-- Branches that become short stay in reach, so shortening never makes code unfit.  Finished code
has no long branch left that could be short, if and only if no more branches become short in the
end than there are rounds. -/
theorem finish_settles_iff (encoder : Encoder) :
    (encoder.shortens = true → ∀ code after, finish encoder = .ok code after →
      ∃ final full : Layout.Draft, encoder.ShortensTo code final ∧
        (∀ rounds, encoder.drafted.items.length ≤ rounds →
          Layout.shorten rounds encoder.drafted = .ok full) ∧
        full.Settled ∧
        (final.Settled ↔
          encoder.drafted.longBranches ≤ full.longBranches + Layout.maxRounds)) ∧
      (∀ rounds final, Layout.shorten rounds encoder.drafted = .ok final →
        encoder.drafted.ShrunkTo final) ∧
      ∀ code after, finish { encoder with shortens := false } = .ok code after →
        ∃ code after, finish { encoder with shortens := true } = .ok code after := by
  refine ⟨fun shortens code after ran => ?_, fun limit final ran => ?_, fun code after =>
    exists_finish_shortening⟩
  · obtain ⟨_, _, final, drafted, laid, _, _, labels, _⟩ := finish_eq_ok_iff.mp ran
    rw [if_pos shortens] at drafted
    obtain ⟨_, _, rounds, _⟩ := Layout.rounds_of_shorten drafted
    obtain ⟨full, fullRan, settled, iff⟩ := Layout.exists_full_of_shorten drafted
      (Layout.Draft.exists_bytes_iff.mp ⟨_, laid⟩)
    exact ⟨final, full, ⟨rounds.shrunk, laid, labels⟩, fullRan, settled, iff⟩
  · obtain ⟨_, _, rounds, _⟩ := Layout.rounds_of_shorten ran
    exact rounds.shrunk

/-- Code without clauses that no branch leaves at its end is finished as it is laid out. -/
theorem exists_finish {encoder : Encoder} (closed : encoder.openBlocks = [])
    (stays : encoder.branchesToEnd = false) (noClauses : encoder.clauses = #[])
    {draft : Layout.Draft} {bytes : List UInt8}
    (drafted : (if encoder.shortens then Layout.shorten Layout.maxRounds encoder.drafted
      else .ok encoder.drafted) = .ok draft)
    (laid : draft.bytes = .ok bytes) :
    ∃ code, finish encoder = .ok code encoder ∧ code.code = bytes := by
  have ends : terminate encoder = .ok () encoder := by
    unfold terminate
    rw [get_bind_run, stays]
    rfl
  have checked : encoder.clauses.toList.forM (Layout.checkClause draft.items) = .ok () := by
    rw [noClauses]
    rfl
  exact ⟨{ code := bytes, maxStack := encoder.maxDepth, labels := _, clauses := _ },
    finish_eq_ok_iff.mpr ⟨closed, ends, draft, drafted, laid, checked, rfl, rfl, rfl⟩, rfl⟩

namespace SkippingBranch

/-- A branch over one instruction, and code that ends behind it. -/
def encoder : Encoder :=
  { items := #[.branch .br "behind", .bytes [0x00], .bytes [0x2A]], size := 7
    labels := #[("behind", 2)] }

def final : Layout.Draft :=
  { items := [.branch .brS "behind", .bytes [0x00], .bytes [0x2A]], labels := [("behind", 2)] }

/-- The branch becomes short, and then the code is settled. -/
theorem finishes_settled :
    (∃ code after, finish encoder = .ok code after ∧
      ∃ final : Layout.Draft, encoder.ShortensTo code final ∧ final.Settled) ∧
    encoder.drafted.ShrunkTo final ∧
    ∃ code after, finish { encoder with shortens := true } = .ok code after := by
  obtain ⟨settles, shrinks, succeeds⟩ := finish_settles_iff encoder
  have stays : encoder.branchesToEnd = false := by decide +kernel
  have drafted : encoder.drafted =
      { items := [.branch .br "behind", .bytes [0x00], .bytes [0x2A]]
        labels := [("behind", 2)] } := by
    unfold drafted ending
    rw [stays]
    rfl
  have shortened : Layout.shorten Layout.maxRounds encoder.drafted = .ok final := by
    rw [drafted]
    rfl
  obtain ⟨code, ran, _⟩ := exists_finish rfl stays rfl shortened rfl
  obtain ⟨long, longRan⟩ : ∃ code, finish { encoder with shortens := false } =
      .ok code { encoder with shortens := false } := by
    obtain ⟨bytes, laid⟩ : ∃ bytes, encoder.drafted.bytes = .ok bytes := by
      rw [drafted]
      exact ⟨_, rfl⟩
    obtain ⟨code, ran, _⟩ := @exists_finish { encoder with shortens := false } rfl stays rfl
      encoder.drafted bytes rfl laid
    exact ⟨code, ran⟩
  obtain ⟨final, full, shortensTo, _, _, iff⟩ := settles rfl code encoder ran
  have few : encoder.drafted.longBranches ≤ full.longBranches + Layout.maxRounds := by
    have one : encoder.drafted.longBranches ≤ Layout.maxRounds := by
      rw [drafted]
      decide
    omega
  exact ⟨⟨code, encoder, ran, final, shortensTo, iff.mpr few⟩, shrinks _ _ shortened,
    succeeds long _ longRan⟩

end SkippingBranch

namespace CrowdedLabel

/-- Fifty branches forward to a label, and fifty-one back to it. -/
def operations : List Operation :=
  List.replicate 50 (.emitBranch "br" "mid") ++ .defineLabel "mid" ::
    List.replicate 51 (.emitBranch "br" "mid")

def encoder : Encoder :=
  operations.foldl (fun encoder operation => finalState (operation.perform encoder)) {}

/-- After a hundred rounds the last branch is still long. -/
def final : Layout.Draft :=
  { items := List.replicate 100 (.branch .brS "mid") ++ [.branch .br "mid"]
    labels := [("mid", 50)] }

theorem exists_of_toOption_any {α : Type} {result : Except Error α} {check : α → Bool}
    (checked : result.toOption.any check = true) :
    ∃ value, result = .ok value ∧ check value = true := by
  cases result with
  | error error => cases checked
  | ok value => exact ⟨value, rfl, checked⟩

theorem drafted_eq : encoder.drafted =
    { items := List.replicate 101 (.branch .br "mid"), labels := [("mid", 50)] } := by
  have items : encoder.drafted.items = List.replicate 101 (.branch .br "mid") := by decide +kernel
  have labels : encoder.drafted.labels = [("mid", 50)] := by decide +kernel
  rw [← items, ← labels]

theorem shorten_eq : Layout.shorten Layout.maxRounds encoder.drafted = .ok final := by
  rw [drafted_eq]
  have checked : ((Layout.shorten Layout.maxRounds
      { items := List.replicate 101 (.branch .br "mid"), labels := [("mid", 50)] }).toOption.any
        fun draft => draft.items == final.items && draft.labels == final.labels) = true := by
    decide +kernel
  obtain ⟨draft, ran, same⟩ := exists_of_toOption_any checked
  obtain ⟨items, labels⟩ := Bool.and_eq_true_iff.mp same
  exact ran.trans (congrArg Except.ok
    (Layout.Draft.mk.injEq .. ▸ ⟨eq_of_beq items, eq_of_beq labels⟩))

theorem exists_bytes : ∃ bytes, final.bytes = .ok bytes ∧
    bytes.drop 200 = [0x38, 0x97, 0xFF, 0xFF, 0xFF] := by
  have checked : (final.bytes.toOption.any
      fun bytes => bytes.drop 200 == [0x38, 0x97, 0xFF, 0xFF, 0xFF]) = true := by
    decide +kernel
  obtain ⟨bytes, laid, last⟩ := exists_of_toOption_any checked
  exact ⟨bytes, laid, eq_of_beq last⟩

/-- The encoder finishes code in which the last branch is long, with the displacement -105, and in
its short form it would have -102. -/
theorem last_stays_long :
    encoder.shortens = true ∧
    (∃ code after, finish encoder = .ok code after ∧
      Layout.shorten Layout.maxRounds encoder.drafted = .ok final ∧
      final.bytes = .ok code.code ∧ code.code.drop 200 = [0x38, 0x97, 0xFF, 0xFF, 0xFF]) ∧
    (final.withBranch 100 .brS "mid").displacement 100 "mid" = -102 ∧ ¬ final.Settled := by
  have shortens : encoder.shortens = true := by decide +kernel
  have closed : encoder.openBlocks = [] := by decide +kernel
  have stays : encoder.branchesToEnd = false := by decide +kernel
  have noClauses : encoder.clauses = #[] := by decide +kernel
  have long : final.items[100]? = some (.branch .br "mid") := by decide +kernel
  have near : (final.withBranch 100 .brS "mid").displacement 100 "mid" = -102 := by
    decide +kernel
  obtain ⟨bytes, laid, last⟩ := exists_bytes
  obtain ⟨code, ran, rfl⟩ :=
    exists_finish closed stays noClauses (by rw [if_pos shortens, shorten_eq]) laid
  refine ⟨shortens, ⟨code, encoder, ran, shorten_eq, laid, last⟩, near, fun settled => ?_⟩
  refine settled 100 ⟨.br, .brS, "mid", long, rfl, ?_⟩
  rw [near]
  decide

end CrowdedLabel

end Encoder

end Cil
