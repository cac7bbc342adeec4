/-
Loops over lists.

A loop that stops at the first failure is `mapM` in `Option` or `Except`.  Its
result is related to its list element by element, which is how the loops of the
gateway are reasoned about.
-/

import Mathlib.Data.List.Forall2

namespace McoaGateway

/-! ### Loops that may fail -/

theorem mapM_eq_some_iff {α β : Type} (f : α → Option β) (list : List α) (result : List β) :
    list.mapM f = some result ↔ List.Forall₂ (fun a b => f a = some b) list result := by
  induction list generalizing result with
  | nil =>
      rw [List.mapM_nil, List.forall₂_nil_left_iff]
      exact ⟨fun same => (Option.some.inj same).symm, fun same => by rw [same]; rfl⟩
  | cons a rest ih =>
      rw [List.mapM_cons, List.forall₂_cons_left_iff]
      constructor
      · intro mapped
        obtain ⟨first, isFirst, restMapped⟩ := Option.bind_eq_some_iff.mp mapped
        obtain ⟨others, isOthers, same⟩ := Option.bind_eq_some_iff.mp restMapped
        exact ⟨first, others, isFirst, (ih others).mp isOthers, (Option.some.inj same).symm⟩
      · rintro ⟨first, others, isFirst, related, rfl⟩
        rw [isFirst, (ih others).mpr related]
        rfl

theorem mapM_eq_ok_iff {ε α β : Type} (f : α → Except ε β) (list : List α) (result : List β) :
    list.mapM f = .ok result ↔ List.Forall₂ (fun a b => f a = .ok b) list result := by
  induction list generalizing result with
  | nil =>
      rw [List.mapM_nil, List.forall₂_nil_left_iff]
      exact ⟨fun same => (Except.ok.inj same).symm, fun same => by rw [same]; rfl⟩
  | cons a rest ih =>
      rw [List.mapM_cons, List.forall₂_cons_left_iff]
      constructor
      · intro mapped
        cases isFirst : f a with
        | error failure =>
            rw [isFirst] at mapped
            cases mapped
        | ok first =>
            cases isOthers : rest.mapM f with
            | error failure =>
                rw [isFirst, isOthers] at mapped
                cases mapped
            | ok others =>
                rw [isFirst, isOthers] at mapped
                cases mapped
                exact ⟨first, others, rfl, (ih others).mp isOthers, rfl⟩
      · rintro ⟨first, others, isFirst, related, rfl⟩
        rw [isFirst, (ih others).mpr related]
        rfl

theorem exists_mapM_iff {α β : Type} (f : α → Option β) (holds : β → Prop) (list : List α) :
    (∃ result, list.mapM f = some result ∧ ∀ b ∈ result, holds b) ↔
      ∀ a ∈ list, ∃ b, f a = some b ∧ holds b := by
  simp only [mapM_eq_some_iff]
  induction list with
  | nil =>
      refine iff_of_true ⟨[], .nil, ?_⟩ ?_
      · exact fun _ member => (List.not_mem_nil member).elim
      · exact fun _ member => (List.not_mem_nil member).elim
  | cons a rest ih =>
      rw [List.forall_mem_cons, ← ih]
      constructor
      · rintro ⟨result, related, all⟩
        cases related with
        | cons isImage others =>
            rw [List.forall_mem_cons] at all
            exact ⟨⟨_, isImage, all.1⟩, _, others, all.2⟩
      · rintro ⟨⟨b, isImage, here⟩, others, related, there⟩
        exact ⟨b :: others, .cons isImage related, List.forall_mem_cons.mpr ⟨here, there⟩⟩

theorem exists_forall₂_iff {α β : Type} (relation : α → β → Prop) (list : List α) :
    (∃ result, List.Forall₂ relation list result) ↔ ∀ a ∈ list, ∃ b, relation a b := by
  induction list with
  | nil => exact iff_of_true ⟨[], .nil⟩ (fun _ member => (List.not_mem_nil member).elim)
  | cons a rest ih =>
      rw [List.forall_mem_cons, ← ih]
      constructor
      · rintro ⟨result, related⟩
        cases related with
        | cons here there => exact ⟨⟨_, here⟩, _, there⟩
      · rintro ⟨⟨b, here⟩, others, there⟩
        exact ⟨b :: others, .cons here there⟩

/-- What holds of an element and its result in terms of the element alone holds
of the lists so. -/
theorem forall₂_iff_forall_mem {α β : Type} {related holds : α → β → Prop} {condition : α → Prop}
    {list : List α} {result : List β} (each : List.Forall₂ related list result)
    (exact : ∀ a b, a ∈ list → related a b → (holds a b ↔ condition a)) :
    List.Forall₂ holds list result ↔ ∀ a ∈ list, condition a := by
  induction each with
  | nil => exact iff_of_true .nil (fun _ member => (List.not_mem_nil member).elim)
  | cons here there ih =>
      rw [List.forall₂_cons, List.forall_mem_cons, exact _ _ List.mem_cons_self here,
        ih fun a b member => exact a b (List.mem_cons_of_mem _ member)]

theorem exists_mem_of_forall₂ {α β : Type} {relation : α → β → Prop} {list : List α}
    {result : List β} (each : List.Forall₂ relation list result) {a : α} (member : a ∈ list) :
    ∃ b ∈ result, relation a b := by
  induction each with
  | nil => cases member
  | cons here _ ih =>
      rcases List.mem_cons.mp member with rfl | inRest
      · exact ⟨_, List.mem_cons_self, here⟩
      · obtain ⟨b, isMember, related⟩ := ih inRest
        exact ⟨b, List.mem_cons_of_mem _ isMember, related⟩

theorem forall₂_comp_exists {α β γ : Type} {first : α → β → Prop} {second : β → γ → Prop}
    {list : List α} {between : List β} {result : List γ}
    (isFirst : List.Forall₂ first list between) (isSecond : List.Forall₂ second between result) :
    List.Forall₂ (fun a c => ∃ b, first a b ∧ second b c) list result := by
  induction isFirst generalizing result with
  | nil =>
      cases isSecond
      exact .nil
  | cons here _ ih =>
      cases isSecond with
      | cons next rest => exact .cons ⟨_, here, next⟩ (ih rest)

/-! ### Loops that cannot tell lists apart -/

/-- A function that is applied to each element cannot tell lists apart exactly
if it cannot tell elements apart. -/
theorem forall₂_mapM_iff {α β : Type} (relation : α → α → Prop)
    (reflexive : ∀ a, relation a a) (f : α → Option β) (list : List α) :
    (∀ other, List.Forall₂ relation list other →
        ∃ result, list.mapM f = some result ∧ other.mapM f = some result) ↔
      ∀ a ∈ list, ∀ b, relation a b → ∃ result, f a = some result ∧ f b = some result := by
  have returns : ∀ (a : α) (rest : List α) (result : List β),
      (a :: rest).mapM f = some result ↔
        ∃ first others, f a = some first ∧ rest.mapM f = some others ∧
          first :: others = result := by
    intro a rest result
    rw [List.mapM_cons]
    cases f a with
    | none => simp
    | some first =>
        cases rest.mapM f with
        | none => simp
        | some others => simp
  induction list with
  | nil =>
      refine iff_of_true ?_ (fun _ member => by cases member)
      intro other related
      cases related
      exact ⟨[], rfl, rfl⟩
  | cons a rest ih =>
      rw [List.forall_mem_cons]
      constructor
      · intro same
        refine ⟨?_, ih.mp ?_⟩
        · intro b related
          obtain ⟨result, left, right⟩ := same (b :: rest)
            (.cons related (List.forall₂_same.mpr fun _ _ => reflexive _))
          obtain ⟨first, others, isFirst, _, rfl⟩ := (returns a rest result).mp left
          obtain ⟨second, _, isSecond, _, isResult⟩ := (returns b rest _).mp right
          rw [(List.cons.inj isResult).1] at isSecond
          exact ⟨first, isFirst, isSecond⟩
        · intro other related
          obtain ⟨result, left, right⟩ := same (a :: other) (.cons (reflexive a) related)
          obtain ⟨first, others, _, isOthers, rfl⟩ := (returns a rest result).mp left
          obtain ⟨_, second, _, isSecond, isResult⟩ := (returns a other _).mp right
          rw [(List.cons.inj isResult).2] at isSecond
          exact ⟨others, isOthers, isSecond⟩
      · rintro ⟨here, there⟩ other related
        cases related with
        | cons relatedHere relatedThere =>
            obtain ⟨first, isFirst, isSecond⟩ := here _ relatedHere
            obtain ⟨others, isOthers, isRest⟩ := ih.mpr there _ relatedThere
            exact ⟨first :: others, (returns _ _ _).mpr ⟨first, others, isFirst, isOthers, rfl⟩,
              (returns _ _ _).mpr ⟨first, others, isSecond, isRest, rfl⟩⟩

theorem forall₂_map_iff {α β : Type} (relation : α → α → Prop) (reflexive : ∀ a, relation a a)
    (f : α → β) (list : List α) :
    (∀ other, List.Forall₂ relation list other → other.map f = list.map f) ↔
      ∀ a ∈ list, ∀ b, relation a b → f b = f a := by
  induction list with
  | nil =>
      refine iff_of_true ?_ (fun _ member => by cases member)
      intro other related
      cases related
      rfl
  | cons a rest ih =>
      rw [List.forall_mem_cons]
      constructor
      · intro same
        refine ⟨?_, ih.mp ?_⟩
        · intro b related
          have mapped := same (b :: rest)
            (.cons related (List.forall₂_same.mpr fun _ _ => reflexive _))
          exact (List.cons.inj mapped).1
        · intro other related
          have mapped := same (a :: other) (.cons (reflexive a) related)
          exact (List.cons.inj mapped).2
      · rintro ⟨here, there⟩ other related
        cases related with
        | cons relatedHere relatedThere =>
            rw [List.map_cons, List.map_cons, here _ relatedHere, ih.mpr there _ relatedThere]

theorem rel_map_iff {α β : Type} (relation : α → α → Prop) (f : α → β) (given : Option α) :
    (∀ other, Option.Rel relation given other → other.map f = given.map f) ↔
      ∀ a ∈ given.toList, ∀ b, relation a b → f b = f a := by
  cases given with
  | none =>
      refine iff_of_true ?_ (fun _ member => by cases member)
      intro other related
      cases related
      rfl
  | some a =>
      constructor
      · intro same own member b related
        rw [Option.toList_some, List.mem_singleton] at member
        subst member
        exact Option.some.inj (same (some b) (.some related))
      · intro same other related
        cases related with
        | some relatedHere =>
            rw [Option.map_some, Option.map_some, same a (by simp) _ relatedHere]

/-! ### Tables -/

theorem mem_of_lookup {α β : Type} [BEq α] [LawfulBEq α] {key : α} {value : β}
    {table : List (α × β)} (found : table.lookup key = some value) : (key, value) ∈ table := by
  obtain ⟨before, after, shape, -⟩ := List.lookup_eq_some_iff.mp found
  rw [shape]
  exact List.mem_append_right _ List.mem_cons_self

end McoaGateway
