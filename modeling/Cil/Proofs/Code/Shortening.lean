import Cil.Proofs.Code.Layout
import Mathlib.Data.List.Forall2

/-!
# Shortening branches

Shortening exchanges branches for their short forms and nothing else: the emitted instructions
stay one for one where they are, and labels keep their marks.
-/

namespace Cil

open Stateful

/-- A short form is a branch that has no shorter form. -/
theorem Opcode.shortForm?_eq_some {opcode short : Opcode}
    (isShort : opcode.shortForm? = some short) :
    short.shortForm? = none ∧ short.flow.isSingleBranch := by
  obtain ⟨forms, found, rfl⟩ := Option.map_eq_some_iff.mp isShort
  have listed : forms ∈ Opcode.branchForms := List.mem_of_find?_eq_some found
  have all : ∀ forms ∈ Opcode.branchForms,
      forms.2.shortForm? = none ∧ forms.2.flow.isSingleBranch := by decide
  exact all forms listed

namespace Emitted

/-- An instruction as it was, or in its short form. -/
inductive Shortened : Emitted → Emitted → Prop
  | same (emitted : Emitted) : Shortened emitted emitted
  | short {opcode short : Opcode} (label : String) (isShort : opcode.shortForm? = some short) :
      Shortened (.branch opcode label) (.branch short label)

theorem Shortened.trans {first second third : Emitted} (once : Shortened first second)
    (again : Shortened second third) : Shortened first third := by
  cases once with
  | same => exact again
  | short label isShort =>
      cases again with
      | same => exact .short label isShort
      | short _ further =>
          rw [(Opcode.shortForm?_eq_some isShort).1] at further
          cases further

theorem Shortened.proper {first second : Emitted} (shortened : Shortened first second)
    (proper : first.Proper) : second.Proper := by
  cases shortened with
  | same => exact proper
  | short label isShort => exact (Opcode.shortForm?_eq_some isShort).2

theorem Shortened.labels {first second : Emitted} (shortened : Shortened first second) :
    second.labels = first.labels := by
  cases shortened <;> rfl

/-- Code in which branches may have become short. -/
abbrev AllShortened : List Emitted → List Emitted → Prop := List.Forall₂ Shortened

theorem allShortened_refl (emitted : List Emitted) : AllShortened emitted emitted :=
  List.forall₂_same.mpr fun item _ => .same item

theorem AllShortened.trans {first second third : List Emitted}
    (once : AllShortened first second) (again : AllShortened second third) :
    AllShortened first third := by
  induction once generalizing third with
  | nil => exact again
  | cons head _ ih =>
      cases again with
      | cons headAgain tailAgain => exact .cons (head.trans headAgain) (ih tailAgain)

theorem AllShortened.proper {first second : List Emitted}
    (shortened : AllShortened first second)
    (proper : ∀ instruction ∈ first, instruction.Proper) :
    ∀ instruction ∈ second, instruction.Proper := by
  induction shortened with
  | nil => exact proper
  | cons head _ ih =>
      obtain ⟨properHead, properTail⟩ := List.forall_mem_cons.mp proper
      exact List.forall_mem_cons.mpr ⟨head.proper properHead, ih properTail⟩

/-- One branch takes its short form. -/
theorem allShortened_set {opcode short : Opcode} (label : String)
    (isShort : opcode.shortForm? = some short) (before after : List Emitted) :
    AllShortened (before ++ .branch opcode label :: after)
      (before ++ .branch short label :: after) := by
  induction before with
  | nil => exact .cons (.short label isShort) (allShortened_refl after)
  | cons first before ih => exact .cons (.same first) ih

theorem item_eq_branch {emitted : Emitted} {opcode : Opcode} {label : String}
    (isBranch : emitted.item = .branch opcode label) : emitted = .branch opcode label := by
  cases emitted <;> cases isBranch
  rfl

end Emitted

namespace Layout

/-- The branch that is found stands among the items, and the item found is its short form. -/
theorem firstShortenable_eq_ok {draft : Draft} {items : List Item} {index offset position : Nat}
    {item : Item}
    (found : firstShortenable draft index (placedFrom offset items) = .ok (some (position, item))) :
    ∃ before opcode label short after, items = before ++ .branch opcode label :: after ∧
      position = index + before.length ∧ opcode.shortForm? = some short ∧
      item = .branch short label := by
  induction items generalizing index offset with
  | nil => cases found
  | cons first items ih =>
      -- Where the first item stays as it is, the branch stands behind it.
      have behind (found : firstShortenable draft (index + 1)
          (placedFrom (offset + first.size) items) = .ok (some (position, item))) :
          ∃ before opcode label short after,
            first :: items = before ++ .branch opcode label :: after ∧
            position = index + before.length ∧ opcode.shortForm? = some short ∧
            item = .branch short label := by
        obtain ⟨before, opcode, label, short, after, rfl, rfl, isShort, rfl⟩ := ih found
        refine ⟨first :: before, opcode, label, short, after, rfl, ?_, isShort, rfl⟩
        rw [List.length_cons]
        omega
      cases first with
      | bytes content => exact behind found
      | switch labels => exact behind found
      | branch opcode label =>
          rw [placedFrom, firstShortenable] at found
          cases isShort : opcode.shortForm? with
          | none =>
              rw [isShort] at found
              exact behind found
          | some short =>
              rw [isShort] at found
              obtain ⟨target, _, found⟩ := except_bind_eq_ok.mp found
              obtain ⟨_, _, found⟩ := except_bind_eq_ok.mp found
              obtain ⟨_, _, found⟩ := except_bind_eq_ok.mp found
              obtain ⟨later, laterFound, final⟩ := except_bind_eq_ok.mp found
              split at final
              · cases final
                exact ⟨[], opcode, label, short, items, rfl, rfl, isShort, rfl⟩
              · cases final
                exact behind laterFound

/-- However many branches are shortened, the instructions stay where they are. -/
theorem shorten_eq_ok {rounds : Nat} {draft final : Draft} {emitted : List Emitted}
    (items : draft.items = emitted.map Emitted.item) (ran : shorten rounds draft = .ok final) :
    ∃ shortened, Emitted.AllShortened emitted shortened ∧
      final.items = shortened.map Emitted.item ∧ final.labels = draft.labels := by
  induction rounds generalizing draft emitted with
  | zero =>
      cases ran
      exact ⟨emitted, Emitted.allShortened_refl emitted, items, rfl⟩
  | succ rounds ih =>
      obtain ⟨found?, found, ran⟩ := except_bind_eq_ok.mp ran
      cases found? with
      | none =>
          cases ran
          exact ⟨emitted, Emitted.allShortened_refl emitted, items, rfl⟩
      | some place =>
          obtain ⟨index, item⟩ := place
          obtain ⟨before, opcode, label, short, after, split, rfl, isShort, rfl⟩ :=
            firstShortenable_eq_ok found
          rw [items] at split
          obtain ⟨front, back, rfl, rfl, isBack⟩ := List.map_eq_append_iff.mp split
          obtain ⟨branch, rest, rfl, isBranch, rfl⟩ := List.map_eq_cons_iff.mp isBack
          obtain rfl := Emitted.item_eq_branch isBranch
          -- One round exchanges one branch, and the rounds that are left go on from there.
          have once := Emitted.allShortened_set label isShort front rest
          have itemsNext : draft.items.set (0 + (front.map Emitted.item).length)
              (.branch short label) =
              (front ++ .branch short label :: rest).map Emitted.item := by
            rw [items, Nat.zero_add, List.map_append, List.set_append_right _ _ (Nat.le_refl _),
              Nat.sub_self, List.map_append]
            rfl
          obtain ⟨shortened, more, itemsFinal, labels⟩ := ih itemsNext ran
          exact ⟨shortened, once.trans more, itemsFinal, labels⟩

end Layout

end Cil
