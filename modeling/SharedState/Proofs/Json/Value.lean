import SharedState.Proofs.Json.Canonical
import SharedState.Proofs.Json.Tree

/-!
# Written values are read back

What is written for a value denotes that value again, as long as reading goes
down far enough: `Json.ofNode?_toNode` says for every value and every number of
levels which of the two happens. Numbers are read back exactly; an integer by
its digits, and any other number because the numeral of a document always has
a point or an exponent and rounds to the number that it was written for.

The only thing that reading changes is the order of members. Objects are kept in
the order of their keys, so a value whose objects are not is read as
`Json.canonical` of it, and one whose objects are is read as itself.
-/

namespace SharedState.Json

open SharedState.Text

/-! ## Numbers -/

namespace Number

/-- A numeral of a document is never mistaken for an integer. -/
theorem document_numeral_ne (d : Decimal) :
    ¬ ((NumberStyle.document.numeral d).fraction = [] ∧
      (NumberStyle.document.numeral d).exponent = none) := by
  rintro ⟨hfraction, hexponent⟩
  rw [NumberStyle.numeral] at hfraction hexponent
  split at hexponent
  · next hpositional =>
      rw [if_pos hpositional, NumberStyle.positional] at hfraction
      split at hfraction
      · cases hfraction
      · next hneg =>
          have hplaces : 0 < (-d.exponent).toNat := by omega
          split at hfraction
          · have hlen := congrArg List.length hfraction
            rw [List.length_drop, List.length_nil] at hlen
            omega
          · have hdigits := (List.append_eq_nil_iff.1 hfraction).2
            exact toDigits_ne_nil _ hdigits
  · cases hexponent

theorem ofNumeral?_eq_ofDouble? (negative : Bool) {n : Numeral}
    (h : ¬ (n.fraction = [] ∧ n.exponent = none)) :
    ofNumeral? negative n = ofDouble? (.ofDecimal negative n.toDecimal) := by
  rw [ofNumeral?]
  exact dif_neg fun hinteger => h ⟨hinteger.1.1, hinteger.1.2.1⟩

/-- A finite number is what its numeral rounds to. -/
theorem ofDecimal_document (negative : Bool) {place : Fin (Format.double.infinity + 1)}
    (h : place.val ≤ Format.double.infinity) :
    Binary.ofDecimal negative (NumberStyle.document.numeral
      (Format.double.shortest .toEven place.val)).toDecimal = .number negative place := by
  have hread : Format.double.nearestDecimal (NumberStyle.document.numeral
      (Format.double.shortest .toEven place.val)).toDecimal = place.val :=
    (Format.nearestDecimal_congr (NumberStyle.value_numeral _ _)).trans
      (Format.nearestDecimal_shortest .toEven h)
  rw [Binary.ofDecimal, hread, Binary.atPlace]
  congr 1
  exact Fin.ext (Nat.min_eq_right h)

/-- A number is read back from its numeral. -/
theorem ofNumeral?_numeral (x : Number) : ofNumeral? x.numeral.1 x.numeral.2 = some x := by
  cases x with
  | integer value fits =>
      have hvalue : (if decide (value < 0) = true then -(value.natAbs : Int) else value.natAbs) =
          value := by
        rcases Int.lt_or_le value 0 with hneg | hpos
        · rw [decide_eq_true hneg, if_pos rfl]
          omega
        · rw [decide_eq_false (Int.not_lt.2 hpos), if_neg Bool.false_ne_true]
          omega
      have hsigned : ¬ (decide (value < 0) = true ∧ value.natAbs = 0) := by
        rw [decide_eq_true_eq]
        omega
      simp only [numeral, ofNumeral?, ofDigits_toDigits, hvalue]
      rw [dif_pos ⟨⟨trivial, trivial, hsigned⟩, fits⟩]
  | float x finite =>
      cases x with
      | nan => cases finite
      | number negative place =>
          have hplace : place.val < Format.double.infinity := of_decide_eq_true finite
          show ofNumeral? negative (NumberStyle.document.numeral
            (Format.double.shortest .toEven place.val)) = _
          rw [ofNumeral?_eq_ofDouble? negative (document_numeral_ne _),
            ofDecimal_document negative hplace.le, ofDouble?, dif_pos finite]

theorem printable_numeral (x : Number) : x.numeral.2.Printable := by
  cases x with
  | integer value fits =>
      refine ⟨toDigits_ne_nil _, fun c hc => isDigit_of_mem_toDigits hc, ?_, nofun⟩
      by_cases h : value.natAbs = 0
      · left
        show toDigits value.natAbs = ['0']
        rw [h]
        rfl
      · exact .inr (head?_toDigits_ne h)
  | float x finite =>
      cases x with
      | nan => cases finite
      | number negative place =>
          have hplace : place.val < Format.double.infinity := of_decide_eq_true finite
          exact NumberStyle.printable_numeral _ (Format.coefficient_shortest .toEven hplace.le)

end Number

/-! ## Reading -/

mutual

/-- A value that nests too deep is not read; any other is read back. -/
theorem ofNode?_toNode (d : Nat) (value : Json) :
    ofNode? d value.toNode = if value.depth ≤ d then some value.canonical else none := by
  cases value with
  | null | bool | string => rfl
  | number n =>
      rw [toNode, ofNode?, Number.ofNumeral?_numeral]
      rfl
  | array items =>
      cases d with
      | zero => rfl
      | succ d =>
          have hdepth : (array items).depth ≤ d + 1 ↔ Node.itemsDepth (toNodes items) ≤ d :=
            Nat.add_le_add_iff_right
          simp only [toNode, ofNode?, ofNodes?_toNodes d items, canonical, hdepth]
          split <;> rfl
  | object members =>
      cases d with
      | zero => rfl
      | succ d =>
          have hdepth : (object members).depth ≤ d + 1 ↔
              Node.membersDepth (toMembers members) ≤ d := Nat.add_le_add_iff_right
          simp only [toNode, ofNode?, ofMembers?_toMembers d members, canonical, hdepth]
          split <;> rfl

theorem ofNodes?_toNodes (d : Nat) (items : List Json) :
    ofNodes? d (toNodes items) =
      if Node.itemsDepth (toNodes items) ≤ d then some (canonicalItems items) else none := by
  cases items with
  | nil => rfl
  | cons value rest =>
      simp only [toNodes, ofNodes?, ofNode?_toNode d value, ofNodes?_toNodes d rest,
        Node.itemsDepth, canonicalItems, Nat.max_le]
      by_cases hvalue : value.depth ≤ d
      · by_cases hrest : Node.itemsDepth (toNodes rest) ≤ d
        · rw [if_pos hvalue, if_pos hrest, if_pos ⟨hvalue, hrest⟩]
        · rw [if_pos hvalue, if_neg hrest, if_neg fun h => hrest h.2]
      · have hnot : ¬ (value.toNode.depth ≤ d ∧ Node.itemsDepth (toNodes rest) ≤ d) :=
          fun h => hvalue h.1
        rw [if_neg hvalue, if_neg hnot]

theorem ofMembers?_toMembers (d : Nat) (members : List (String × Json)) :
    ofMembers? d (toMembers members) =
      if Node.membersDepth (toMembers members) ≤ d then some (canonicalMembers members)
      else none := by
  match members with
  | [] => rfl
  | (key, value) :: rest =>
      simp only [toMembers, ofMembers?, ofNode?_toNode d value, ofMembers?_toMembers d rest,
        Node.membersDepth, canonicalMembers, Nat.max_le]
      by_cases hvalue : value.depth ≤ d
      · by_cases hrest : Node.membersDepth (toMembers rest) ≤ d
        · rw [if_pos hvalue, if_pos hrest, if_pos ⟨hvalue, hrest⟩]
        · rw [if_pos hvalue, if_neg hrest, if_neg fun h => hrest h.2]
      · have hnot : ¬ (value.toNode.depth ≤ d ∧ Node.membersDepth (toMembers rest) ≤ d) :=
          fun h => hvalue h.1
        rw [if_neg hvalue, if_neg hnot]

end

mutual

theorem printable_toNode (value : Json) : value.toNode.Printable := by
  cases value with
  | null | bool => exact trivial
  | number n => exact n.printable_numeral
  | string s => exact rfl
  | array items => exact printable_toNodes items
  | object members => exact printable_toMembers members

theorem printable_toNodes (items : List Json) : Node.PrintableItems (toNodes items) := by
  cases items with
  | nil => exact trivial
  | cons value rest => exact ⟨printable_toNode value, printable_toNodes rest⟩

theorem printable_toMembers (members : List (String × Json)) :
    Node.PrintableMembers (toMembers members) := by
  match members with
  | [] => exact trivial
  | (key, value) :: rest => exact ⟨rfl, printable_toNode value, printable_toMembers rest⟩

end

/-- What is written for a value is read back, if the value is not too deep. -/
theorem parse?_render (value : Json) :
    parse? value.render.toUTF8 = if value.depth ≤ maxDepth then some value.canonical else none := by
  rw [parse?, render, write, Node.parse?_write (printable_toNode value)]
  exact ofNode?_toNode maxDepth value

end SharedState.Json
