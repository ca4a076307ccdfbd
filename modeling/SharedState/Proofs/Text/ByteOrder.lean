import SharedState.KeyMap
import SharedState.Proofs.Base64

/-!
# Texts are ordered as their bytes

Keys are compared by their characters, and a reader of their bytes compares
those. The two orders are the same, which is a property of the encoding: of two
characters the smaller one has the smaller bytes, and they differ at a place
where both have one. So the first place where two texts differ settles both
comparisons, whatever comes after it.
-/

namespace SharedState.Text

theorem toUTF8_toList (s : String) :
    s.toUTF8.toList = s.toList.flatMap String.utf8EncodeChar := by
  conv => lhs; rw [← String.ofList_toList (s := s)]
  rw [String.toUTF8_eq_toByteArray]
  exact toList_toByteArray _

theorem cons_ofNat_lt_iff {a b : Nat} (ha : a < 256) (hb : b < 256) {x y : List UInt8} :
    UInt8.ofNat a :: x < UInt8.ofNat b :: y ↔ a < b ∨ a = b ∧ x < y := by
  rw [List.cons_lt_cons_iff, UInt8.lt_iff_toNat_lt, ← UInt8.toNat_inj, UInt8.toNat_ofNat',
    UInt8.toNat_ofNat', Nat.mod_eq_of_lt ha, Nat.mod_eq_of_lt hb]

/-- The bytes of the smaller of two characters are smaller, whatever follows
them. Encodings of different lengths differ in their first bytes, and those of
one length at the first digit to base 64 that differs. -/
theorem utf8EncodeChar_append_lt {c d : Char} (h : c < d) (x y : List UInt8) :
    String.utf8EncodeChar c ++ x < String.utf8EncodeChar d ++ y := by
  have hval : c.val.toNat < d.val.toNat := h
  have hmax : d.val.toNat < 1114112 := by
    rcases d.valid with hd | hd
    · exact Nat.lt_trans hd (by decide)
    · exact hd.2
  generalize hc : c.val.toNat = a at hval
  generalize hd : d.val.toNat = b at hval hmax
  have hthird : ∀ n, n / 4096 = n / 64 / 64 := by omega
  have hfourth : ∀ n, n / 262144 = n / 64 / 64 / 64 := by omega
  simp only [String.utf8EncodeChar, hc, hd, hthird, hfourth]
  -- one case for each pair of lengths
  repeat' split
  all_goals
    simp (disch := omega) only [List.cons_append, List.nil_append, cons_ofNat_lt_iff]
    omega

theorem flatMap_utf8EncodeChar_lt {l r : List Char} (h : l < r) :
    l.flatMap String.utf8EncodeChar < r.flatMap String.utf8EncodeChar := by
  induction List.lex_lt.2 h with
  | @nil d rest =>
      rw [List.flatMap_nil, List.flatMap_cons]
      obtain ⟨byte, bytes, hbytes⟩ :=
        List.exists_cons_of_ne_nil (String.utf8EncodeChar_ne_nil (c := d))
      rw [hbytes]
      exact List.nil_lt_cons _ _
  | rel hcd =>
      rw [List.flatMap_cons, List.flatMap_cons]
      exact utf8EncodeChar_append_lt hcd _ _
  | cons hrest ih =>
      rw [List.flatMap_cons, List.flatMap_cons]
      exact List.append_left_lt (ih (List.lex_lt.1 hrest))

/-- The order of texts is the order of their bytes. -/
theorem toUTF8_lt_iff {s t : String} : s.toUTF8.toList < t.toUTF8.toList ↔ s < t := by
  have hbytes : ∀ {s t : String}, s < t → s.toUTF8.toList < t.toUTF8.toList := by
    intro s t h
    rw [toUTF8_toList, toUTF8_toList]
    exact flatMap_utf8EncodeChar_lt h
  refine ⟨fun h => ?_, hbytes⟩
  apply Decidable.byContradiction
  intro hnot
  by_cases heq : s = t
  · subst heq
    exact List.lt_irrefl _ h
  · exact List.lt_asymm h (hbytes (KeyMap.lt_of_not_lt_of_ne hnot heq))

end SharedState.Text
