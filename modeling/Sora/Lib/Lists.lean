import Mathlib.Data.List.Forall2

/-!
# Lists

Maps that may fail, searches with a stronger and a weaker test, and lists without a second element of
one key.
-/

namespace Sora.Lib

open List

theorem exists_of_forall₂ {α β : Type*} {R : α → β → Prop} {as : List α} {bs : List β} {a : α}
    (related : List.Forall₂ R as bs) (member : a ∈ as) : ∃ b ∈ bs, R a b := by
  induction related with
  | nil => cases member
  | cons head tail ih =>
    rcases mem_cons.mp member with rfl | later
    · exact ⟨_, mem_cons_self, head⟩
    · obtain ⟨b, member', rel⟩ := ih later
      exact ⟨b, mem_cons_of_mem _ member', rel⟩

section

variable {α β : Type} {f : α → Option β} {l : List α} {out : List β} {R : α → β → Prop} {m : List β}

/-! ## Maps that may fail -/

theorem mapM_eq_some_iff : l.mapM f = some out ↔ List.Forall₂ (fun x y => f x = some y) l out := by
  induction l generalizing out with
  | nil =>
    rw [forall₂_nil_left_iff]
    exact ⟨fun same => (Option.some.inj same).symm, fun same => congrArg some same.symm⟩
  | cons x l ih =>
    simp only [mapM_cons, Option.bind_eq_bind, Option.bind_eq_some_iff, Option.pure_def,
      Option.some.injEq, forall₂_cons_left_iff, ih]
    constructor
    · rintro ⟨y, here, rest, later, rfl⟩
      exact ⟨y, rest, here, later, rfl⟩
    · rintro ⟨y, rest, here, later, rfl⟩
      exact ⟨y, here, rest, later, rfl⟩

theorem isSome_mapM : (l.mapM f).isSome ↔ ∀ a ∈ l, (f a).isSome := by
  induction l with
  | nil => simp
  | cons a l ih =>
    rw [mapM_cons, forall_mem_cons, ← ih]
    cases f a with
    | none => simp
    | some b =>
      cases l.mapM f with
      | none | some bs => simp

theorem mapM_of_forall {g : α → β}
    (all : ∀ x ∈ l, f x = some (g x)) : l.mapM f = some (l.map g) := by
  induction l with
  | nil => rfl
  | cons x l ih =>
    rw [mapM_cons, all x mem_cons_self, ih fun y inside => all y (mem_cons_of_mem _ inside)]
    rfl

theorem mapM_congr {g : α → Option β} (all : ∀ x ∈ l, f x = g x) : l.mapM f = l.mapM g := by
  induction l with
  | nil => rfl
  | cons x l ih =>
    rw [mapM_cons, mapM_cons, all x mem_cons_self,
      ih fun y inside => all y (mem_cons_of_mem _ inside)]

/-- Every value of the result comes from an element. -/
theorem mem_of_mapM (made : l.mapM f = some out) {y : β} (inside : y ∈ out) :
    ∃ x ∈ l, f x = some y :=
  exists_of_forall₂ (mapM_eq_some_iff.mp made).flip inside

/-- Every element has its value in the result. -/
theorem mem_mapM (made : l.mapM f = some out) {x : α} (inside : x ∈ l) : ∃ y ∈ out, f x = some y :=
  exists_of_forall₂ (mapM_eq_some_iff.mp made) inside

/-- Where every element has a value with a property, there is a result, and its values have it. -/
theorem exists_mapM {P : β → Prop} (all : ∀ x ∈ l, ∃ y, f x = some y ∧ P y) :
    ∃ out, l.mapM f = some out ∧ ∀ y ∈ out, P y := by
  obtain ⟨out, made⟩ := Option.isSome_iff_exists.mp (isSome_mapM.mpr fun x inside => by
    obtain ⟨y, same, -⟩ := all x inside
    exact Option.isSome_iff_exists.mpr ⟨y, same⟩)
  refine ⟨out, made, fun y inside => ?_⟩
  obtain ⟨x, there, same⟩ := mem_of_mapM made inside
  obtain ⟨z, again, has⟩ := all x there
  cases same.symm.trans again
  exact has

/-- What each value keeps of its element, the lists keep. -/
theorem map_of_mapM {γ : Type} {g : α → γ} {h : β → γ} (made : l.mapM f = some out)
    (keeps : ∀ x y, f x = some y → h y = g x) : out.map h = l.map g := by
  have each := mapM_eq_some_iff.mp made
  clear made
  induction each with
  | nil => rfl
  | cons here _ ih => rw [map_cons, map_cons, keeps _ _ here, ih]

/-! ## Searches -/

/-- A search with a stronger test has the result of the weaker one exactly if that result passes the
stronger test too. -/
theorem find?_eq_find?_iff {p q : α → Bool} (stronger : ∀ x, p x = true → q x = true) :
    l.find? p = l.find? q ↔ ∀ x, l.find? q = some x → p x = true := by
  constructor
  · intro same x found
    rw [← same] at found
    exact find?_some found
  · intro passes
    induction l with
    | nil => rfl
    | cons x l ih =>
      rw [find?_cons, find?_cons]
      cases weak : q x with
      | true =>
        rw [passes x (by rw [find?_cons, weak])]
      | false =>
        have strong : p x = false := by
          by_contra holds
          rw [stronger x (by simpa using holds)] at weak
          cases weak
        rw [strong]
        exact ih fun y found => passes y (by rw [find?_cons, weak]; exact found)

/-- Equivalences along two lists. -/
theorem forall₂_iff {S : α → Prop} (made : List.Forall₂ (fun a b => R a b ↔ S a) l m) :
    List.Forall₂ R l m ↔ ∀ a ∈ l, S a := by
  induction made with
  | nil => simp
  | cons head _ ih => rw [forall₂_cons, head, ih, forall_mem_cons]

theorem forall₂_right (made : List.Forall₂ R l m) {b : β} (inside : b ∈ m) : ∃ a ∈ l, R a b :=
  exists_of_forall₂ made.flip inside

theorem forall₂_imp_mem {S : α → β → Prop} (made : List.Forall₂ R l m)
    (each : ∀ a ∈ l, ∀ b, R a b → S a b) : List.Forall₂ S l m := by
  induction made with
  | nil => exact .nil
  | cons head _ ih =>
    exact .cons (each _ mem_cons_self _ head)
      (ih fun a later => each a (mem_cons_of_mem _ later))

theorem forall₂_exists_iff {P : α → Prop} {Q : β → Prop}
    (made : List.Forall₂ (fun a b => P a ↔ Q b) l m) : (∃ a ∈ l, P a) ↔ ∃ b ∈ m, Q b := by
  constructor
  · intro some
    obtain ⟨a, inside, holds⟩ := some
    obtain ⟨b, there, same⟩ := exists_of_forall₂ made inside
    exact ⟨b, there, same.mp holds⟩
  · intro some
    obtain ⟨b, inside, holds⟩ := some
    obtain ⟨a, there, same⟩ := forall₂_right made inside
    exact ⟨a, there, same.mpr holds⟩

/-! ## One element of each key -/

variable [DecidableEq β]

/-- The elements whose key was not seen before. -/
def distinctBy (key : α → β) : List β → List α → List α
  | _, [] => []
  | seen, x :: rest =>
    if key x ∈ seen then distinctBy key seen rest
    else x :: distinctBy key (key x :: seen) rest

theorem mem_keys_distinctBy {key : α → β} {seen : List β} {k : β} :
    k ∈ (distinctBy key seen l).map key ↔ k ∈ l.map key ∧ k ∉ seen := by
  induction l generalizing seen with
  | nil => simp [distinctBy]
  | cons x l ih =>
    rw [distinctBy]
    split
    · rename_i known
      rw [ih, map_cons, mem_cons]
      constructor
      · rintro ⟨inside, fresh⟩
        exact ⟨.inr inside, fresh⟩
      · rintro ⟨rfl | inside, fresh⟩
        · exact absurd known fresh
        · exact ⟨inside, fresh⟩
    · rename_i fresh
      rw [map_cons, map_cons, mem_cons, mem_cons, ih, mem_cons]
      constructor
      · rintro (rfl | ⟨inside, absent⟩)
        · exact ⟨.inl rfl, fresh⟩
        · exact ⟨.inr inside, fun known => absent (.inr known)⟩
      · rintro ⟨rfl | inside, absent⟩
        · exact .inl rfl
        · by_cases same : k = key x
          · exact .inl same
          · exact .inr ⟨inside, fun known => known.elim same absent⟩

theorem nodup_distinctBy (key : α → β) (seen : List β) (l : List α) :
    ((distinctBy key seen l).map key).Nodup := by
  induction l generalizing seen with
  | nil => exact .nil
  | cons x l ih =>
    rw [distinctBy]
    split
    · exact ih seen
    · rw [map_cons, nodup_cons, mem_keys_distinctBy]
      exact ⟨fun later => later.2 mem_cons_self, ih _⟩

end

end Sora.Lib
