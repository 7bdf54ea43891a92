import Sora.Control.SessionPlan

/-!
# The destinations of rules

The type of a rule is guessed from its destination by ordered tests.  Of the forms that the contract
names every one reaches its own branch except the port: a number has neither a slash nor a colon, so
it becomes a keyword of names.
-/

namespace Sora.Control

open Sora.Lib Sora.Contract List

/-- The IDNA package with its strict rules: what it returns is a name of letters, digits and
hyphens. -/
structure IDNA where
  toASCII : Bytes → Option Bytes
  strict : ∀ {name text}, toASCII name = some text →
    text ≠ [] ∧ ∀ c ∈ text, (Url.isAlpha c || isDigit 10 c || c == 45 || c == 46) = true

/-- A destination in a form that the contract names, with the type and the value it stands for. -/
inductive Documented (idna : IDNA) : Bytes → RuleType → Bytes → Prop
  | word {word value : Bytes} {kind : RuleType} (known : (word, kind) ∈ rulePrefixes)
      (other : ¬(kind = .domain ∨ kind = .domainSuffix)) (filled : trimSpace value ≠ []) :
      Documented idna (word ++ value) kind value
  | name {word name text : Bytes} {kind : RuleType} (known : (word, kind) ∈ rulePrefixes)
      (named : kind = .domain ∨ kind = .domainSuffix) (read : idna.toASCII name = some text) :
      Documented idna (word ++ name) kind text
  | network {text : Bytes} (network : isCIDR text = true) : Documented idna text .ipCIDR text
  | port {n : Nat} (positive : 0 < n) (fits : n < 2 ^ 16) :
      Documented idna (numeral 10 n) .port (numeral 10 n)

/-- A text without line breaks and tabs. -/
def Unbroken (value : Bytes) : Prop := (value.all fun c => c != 13 && c != 10 && c != 9) = true

variable {idna : IDNA} {destination target word value text : Bytes} {kind : RuleType}

theorem ruleTypeOf_word (known : (word, kind) ∈ rulePrefixes) (value : Bytes) :
    ruleTypeOf (word ++ value) = kind ∧ ruleValue kind (word ++ value) = value := by
  simp only [rulePrefixes, mem_cons, not_mem_nil, or_false] at known
  rcases known with ⟨rfl, rfl⟩ | ⟨rfl, rfl⟩ | ⟨rfl, rfl⟩ | ⟨rfl, rfl⟩ | ⟨rfl, rfl⟩ | ⟨rfl, rfl⟩ <;>
    exact ⟨rfl, rfl⟩

theorem valid_word (known : (word, kind) ∈ rulePrefixes) :
    ({ type := kind, value := value, target := target } : Rule).valid = true ↔
      trimSpace value ≠ [] ∧ Unbroken value := by
  simp only [rulePrefixes, mem_cons, not_mem_nil, or_false] at known
  rcases known with ⟨-, rfl⟩ | ⟨-, rfl⟩ | ⟨-, rfl⟩ | ⟨-, rfl⟩ | ⟨-, rfl⟩ | ⟨-, rfl⟩ <;>
    simp [Rule.valid, Unbroken]

/-- The bytes of addresses, networks and numbers spell none of the words. -/
theorem ruleTypeOf_net (net : ∀ c ∈ text, netByte c = true) : ruleTypeOf text =
    if 47 ∈ text then .ipCIDR else if 58 ∈ text then .port else .domainKeyword := by
  have wordless : rulePrefixes.find? (fun p => p.1.isPrefixOf text) = none := by
    refine find?_eq_none.mpr fun p listed front => ?_
    have letter : rulePrefixes.all fun p => p.1.any fun c => !netByte c := by decide
    obtain ⟨c, inside, other⟩ := any_eq_true.mp (all_eq_true.mp letter p listed)
    have byte := net c (( isPrefixOf_iff_prefix.mp front).subset inside)
    simp [byte] at other
  rw [ruleTypeOf, wordless]

theorem netByte_numeral (n : Nat) : ∀ c ∈ numeral 10 n, netByte c = true := fun c inside =>
  netByte_of_addrByte (addrByte_of_isDigit 10 (by decide)
    (isDigit_of_mem_numeral (by decide) (by decide) c inside))

theorem unbroken_of_visible (visible : ∀ c ∈ text, isSpace c = false) : Unbroken text := by
  refine all_eq_true.mpr fun c inside => ?_
  have all : ∀ c, isSpace c = false → (c != 13 && c != 10 && c != 9) = true :=
    forall_byte (by decide +kernel)
  exact all c (visible c inside)

theorem trimSpace_ne_nil (visible : ∀ c ∈ text, isSpace c = false) (full : text ≠ []) :
    trimSpace text ≠ [] := by
  obtain ⟨c, inside⟩ := exists_mem_of_ne_nil text full
  exact ne_nil_of_mem (mem_trimSpace (visible c inside) inside)

theorem IDNA.visible (read : idna.toASCII value = some text) : ∀ c ∈ text, isSpace c = false := by
  intro c inside
  have all : ∀ c, (Url.isAlpha c || isDigit 10 c || c == 45 || c == 46) = true →
      isSpace c = false := forall_byte (by decide +kernel)
  exact all c ((idna.strict read).2 c inside)

theorem Documented.given (form : Documented idna text kind value) : text ≠ [] := by
  have worded : ∀ p ∈ rulePrefixes, p.1 ≠ [] := by decide
  cases form with
  | word known _ _ | name known _ _ =>
    exact fun empty => worded _ known (append_eq_nil_iff.mp empty).1
  | network network =>
    rintro rfl
    cases network
  | port _ _ => exact numeral_ne_nil

/-- The conversion of names that are in their form already. -/
def asciiNames : IDNA where
  toASCII name :=
    if name ≠ [] ∧ (name.all fun c => Url.isAlpha c || isDigit 10 c || c == 45 || c == 46) = true then
      some name
    else none
  strict read := by
    split at read <;> cases read
    rename_i named
    exact ⟨named.1, List.all_eq_true.mp named.2⟩

end Sora.Control
