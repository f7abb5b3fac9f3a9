import CipherRelay.Scheme.Keys
import Mathlib.Algebra.Order.BigOperators.Group.List
import Mathlib.Algebra.Order.Ring.Nat
/-!
Sizes of payloads. The payload of a vector takes a digit string and one more byte for each entry, so
the size of a key is known from its entries, without writing it out.
-/
namespace CipherRelay

namespace Json

theorem length_itemLexemes {items : List Json} (h : items ≠ []) :
    ((itemLexemes items).flatMap Lexeme.render).length + 1 =
      (items.map fun item => item.render.length + 1).sum := by
  induction items with
  | nil => exact absurd rfl h
  | cons item rest ih =>
      cases rest with
      | nil => simp [itemLexemes, render]
      | cons next rest =>
          have hRest := ih (List.cons_ne_nil next rest)
          simp [itemLexemes, render, Lexeme.render] at hRest ⊢
          omega

/-- An array takes its items, a mark after each of them and one at the front. -/
theorem length_render_array {items : List Json} (h : items ≠ []) : (array items).render.length =
    (items.map fun item => item.render.length + 1).sum + 1 := by
  rw [← length_itemLexemes h]
  simp [render, lexemes, Lexeme.render]

/-- Quotes, braces and a colon stand around a single field. -/
theorem length_render_field (name : String) (value : Json) :
    (record [(name, value)]).render.length =
      (escape name).length + value.render.length + 5 := by
  simp [record, render, lexemes, memberLexemes, Lexeme.render]
  omega

theorem length_render_fields (first second : String) (left right : Json) :
    (record [(first, left), (second, right)]).render.length =
      (escape first).length + left.render.length + (escape second).length +
        right.render.length + 9 := by
  simp [record, render, lexemes, memberLexemes, Lexeme.render]
  omega

theorem length_digits_le {n count : Nat} (h : n < 10 ^ (count + 1)) :
    (digits n).length ≤ count + 1 := by
  induction count generalizing n with
  | zero =>
      rw [digits, if_pos (by omega)]
      rfl
  | succ count ih =>
      rw [digits]
      split
      · simp
      · simp only [List.length_append, List.length_singleton, Nat.add_le_add_iff_right]
        exact ih (by rw [Nat.pow_succ] at h; omega)

end Json

namespace Scheme

/-- A vector takes the digits of its entries, a mark after each of them and one at the front. -/
theorem length_render_residues {v : Residues} (h : v ≠ []) : (toJson v).render.length =
    (v.map fun x => (Json.digits x.toNat).length + 1).sum + 1 := by
  refine (Json.length_render_array (by simpa using h)).trans ?_
  simp [toJson, Json.ofNat, Json.render, Json.lexemes, Json.Lexeme.render, Function.comp_def]

/-- A vector of equal entries takes as many digits for each of them. -/
theorem length_render_replicate {count : Nat} (h : count ≠ 0) (x : UInt64) :
    (toJson (List.replicate count x)).render.length =
      count * ((Json.digits x.toNat).length + 1) + 1 := by
  rw [length_render_residues (by simpa using h)]
  simp

/-- An entry below `2 ^ 32` has ten digits at most, and a comma behind it. -/
theorem length_render_residues_le {v : Residues} (h : ∀ x ∈ v, x.toNat < 2 ^ 32) :
    (toJson v).render.length ≤ 11 * v.length + 2 := by
  by_cases hEmpty : v = []
  · subst hEmpty
    decide
  · have hSum := List.sum_le_card_nsmul (v.map fun x => (Json.digits x.toNat).length + 1) 11
      (by
        intro size hMem
        obtain ⟨x, hx, rfl⟩ := List.mem_map.mp hMem
        have hDigits : (Json.digits x.toNat).length ≤ 9 + 1 :=
          Json.length_digits_le (Nat.lt_trans (h x hx) (by decide))
        omega)
    rw [length_render_residues hEmpty]
    rw [List.length_map, nsmul_eq_mul, Nat.cast_id] at hSum
    omega

theorem length_encode_privateKey (key : PrivateKey) :
    (Artifact.encode key).length = (toJson key.s).render.length + 6 := by
  have hName : (Json.escape "s").length = 1 := by decide
  refine (Json.length_render_field "s" _).trans ?_
  omega

theorem length_encode_publicKey (key : PublicKey) : (Artifact.encode key).length =
    (toJson key.p0).render.length + (toJson key.p1).render.length + 13 := by
  have hFirst : (Json.escape "p0").length = 2 := by decide
  have hSecond : (Json.escape "p1").length = 2 := by decide
  refine (Json.length_render_fields "p0" "p1" _ _).trans ?_
  omega

theorem length_encode_switchKey (key : SwitchKey) : (Artifact.encode key).length =
    (toJson key.alpha).render.length + (toJson key.beta).render.length + 18 := by
  have hFirst : (Json.escape "alpha").length = 5 := by decide
  have hSecond : (Json.escape "beta").length = 4 := by decide
  refine (Json.length_render_fields "alpha" "beta" _ _).trans ?_
  omega

end Scheme

end CipherRelay
