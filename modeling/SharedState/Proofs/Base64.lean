import SharedState.Base64
import SharedState.Proofs.Except

/-!
# Base64 is read back

The strict reader accepts what the writer writes and gives back the bytes, and
it accepts nothing else: `decode_encode` and `encode_of_decode`. The symbols
come in groups of four, and the induction follows the groups of three bytes
that they stand for; only the last group can be of another form, and each of
its three forms is a case of its own. Which texts these are can be told by their
form alone, `isCanonical`.

The text that carries the symbols is made of characters and read as bytes again.
That is no loss, because every symbol is an ASCII character.
-/

namespace SharedState

/-! ## ASCII text and its bytes -/

theorem toList_loop (bytes : ByteArray) (i : Nat) (acc : List UInt8) :
    ByteArray.toList.loop bytes i acc = acc.reverse ++ bytes.data.toList.drop i := by
  fun_induction ByteArray.toList.loop bytes i acc with
  | case1 i acc h ih =>
      have hlen : i < bytes.data.toList.length := h
      have hget : bytes.get! i = bytes.data.toList[i] := getElem!_pos bytes.data i h
      rw [ih, List.drop_eq_getElem_cons hlen, hget, List.reverse_cons, List.append_assoc]
      rfl
  | case2 i acc h =>
      have hlen : bytes.data.toList.length ≤ i := Nat.not_lt.1 h
      rw [List.drop_eq_nil_of_le hlen, List.append_nil]

theorem toList_eq_data (bytes : ByteArray) : bytes.toList = bytes.data.toList := by
  rw [ByteArray.toList, toList_loop]
  rfl

theorem toList_toByteArray (bytes : List UInt8) : bytes.toByteArray.toList = bytes := by
  rw [toList_eq_data]
  exact List.toList_data_toByteArray

theorem eq_of_toUTF8 {s t : String} (h : s.toUTF8.toList = t.toUTF8.toList) : s = t := by
  rw [toList_eq_data, toList_eq_data] at h
  exact String.toByteArray_inj.1 (ByteArray.ext (Array.toList_inj.1 h))

/-- The character of a byte. -/
def charOf (byte : UInt8) : Char := Char.ofNat byte.toNat

theorem utf8EncodeChar_charOf {byte : UInt8} (h : byte.toNat < 128) :
    String.utf8EncodeChar (charOf byte) = [byte] := by
  have hall : ∀ n < 128, String.utf8EncodeChar (Char.ofNat n) = [UInt8.ofNat n] := by decide
  have hbyte := hall byte.toNat h
  rwa [UInt8.ofNat_toNat] at hbyte

theorem toUTF8_charOf {bytes : List UInt8} (h : ∀ byte ∈ bytes, byte.toNat < 128) :
    (String.ofList (bytes.map charOf)).toUTF8.toList = bytes := by
  have hflat : (bytes.map charOf).flatMap String.utf8EncodeChar = bytes := by
    induction bytes with
    | nil => rfl
    | cons byte rest ih =>
        have hrest := ih fun b hb => h b (List.mem_cons_of_mem byte hb)
        rw [List.map_cons, List.flatMap_cons, utf8EncodeChar_charOf (h byte List.mem_cons_self),
          hrest]
        rfl
  rw [String.toUTF8_eq_toByteArray, String.toByteArray_ofList, List.utf8Encode, hflat]
  exact toList_toByteArray bytes

namespace Base64

/-! ## Symbols -/

theorem sextet?_symbol {n : Nat} (h : n < 64) : sextet? (symbol n) = some n := by
  have hall : ∀ n < 64, sextet? (symbol n) = some n := by decide
  exact hall n h

theorem sextetAt_symbol {n : Nat} (h : n < 64) (place : Nat) :
    sextetAt place (symbol n) = .ok n := by
  rw [sextetAt, sextet?_symbol h]

theorem symbol_ne_pad {n : Nat} (h : n < 64) : symbol n ≠ pad := by
  have hall : ∀ n < 64, symbol n ≠ pad := by decide
  exact hall n h

theorem symbol_lt {n : Nat} (h : n < 64) : (symbol n).toNat < 128 := by
  have hall : ∀ n < 64, (symbol n).toNat < 128 := by decide
  exact hall n h

/-! ## The numbers of a group -/

section group

variable (a b c : UInt8)

theorem first_lt : a.toNat / 4 < 64 := by
  have := a.toNat_lt
  omega

theorem second_lt : a.toNat % 4 * 16 + b.toNat / 16 < 64 := by
  have := b.toNat_lt
  omega

theorem third_lt : b.toNat % 16 * 4 + c.toNat / 64 < 64 := by
  have := c.toNat_lt
  omega

theorem fourth_lt : c.toNat % 64 < 64 := Nat.mod_lt _ (by decide)

theorem ofNat_eq {n : Nat} {byte : UInt8} (h : n = byte.toNat) : UInt8.ofNat n = byte := by
  rw [h, UInt8.ofNat_toNat]

theorem groupBytes_eq :
    groupBytes (a.toNat / 4) (a.toNat % 4 * 16 + b.toNat / 16)
      (b.toNat % 16 * 4 + c.toNat / 64) (c.toNat % 64) = [a, b, c] := by
  have hb := b.toNat_lt
  have hc := c.toNat_lt
  have h₁ : a.toNat / 4 * 4 + (a.toNat % 4 * 16 + b.toNat / 16) / 16 = a.toNat := by omega
  have h₂ : (a.toNat % 4 * 16 + b.toNat / 16) % 16 * 16 +
      (b.toNat % 16 * 4 + c.toNat / 64) / 4 = b.toNat := by omega
  have h₃ : (b.toNat % 16 * 4 + c.toNat / 64) % 4 * 64 + c.toNat % 64 = c.toNat := by omega
  rw [groupBytes, ofNat_eq h₁, ofNat_eq h₂, ofNat_eq h₃]

end group

/-! ## Groups -/

section read

variable {x y z u : Nat} (place : Nat) (hx : x < 64) (hy : y < 64)

include hx hy

theorem decodeLast_two (hzero : y % 16 = 0) :
    decodeLast place [symbol x, symbol y, pad, pad] = .ok ((groupBytes x y 0 0).take 1) := by
  have hsplit : [symbol x, symbol y, pad, pad].takeWhile (· ≠ pad) = [symbol x, symbol y] ∧
      [symbol x, symbol y, pad, pad].dropWhile (· ≠ pad) = [pad, pad] := by
    simp [symbol_ne_pad hx, symbol_ne_pad hy]
  have hread : lastSextets place [symbol x, symbol y] = .ok [(symbol x, x), (symbol y, y)] := by
    simp only [lastSextets, sextetAt_symbol hx, sextetAt_symbol hy]
    rfl
  simp only [decodeLast, hsplit.1, hsplit.2, hread, bind, Except.bind]
  simp [hzero]

theorem decodeLast_three (hz : z < 64) (hzero : z % 4 = 0) :
    decodeLast place [symbol x, symbol y, symbol z, pad] =
      .ok ((groupBytes x y z 0).take 2) := by
  have hsplit :
      [symbol x, symbol y, symbol z, pad].takeWhile (· ≠ pad) =
        [symbol x, symbol y, symbol z] ∧
      [symbol x, symbol y, symbol z, pad].dropWhile (· ≠ pad) = [pad] := by
    simp [symbol_ne_pad hx, symbol_ne_pad hy, symbol_ne_pad hz]
  have hread : lastSextets place [symbol x, symbol y, symbol z] =
      .ok [(symbol x, x), (symbol y, y), (symbol z, z)] := by
    simp only [lastSextets, sextetAt_symbol hx, sextetAt_symbol hy, sextetAt_symbol hz]
    rfl
  simp only [decodeLast, hsplit.1, hsplit.2, hread, bind, Except.bind]
  simp [hzero]

theorem decodeLast_four (hz : z < 64) (hu : u < 64) :
    decodeLast place [symbol x, symbol y, symbol z, symbol u] = .ok (groupBytes x y z u) := by
  have hsplit :
      [symbol x, symbol y, symbol z, symbol u].takeWhile (· ≠ pad) =
        [symbol x, symbol y, symbol z, symbol u] ∧
      [symbol x, symbol y, symbol z, symbol u].dropWhile (· ≠ pad) = [] := by
    simp [symbol_ne_pad hx, symbol_ne_pad hy, symbol_ne_pad hz, symbol_ne_pad hu]
  have hread : lastSextets place [symbol x, symbol y, symbol z, symbol u] =
      .ok [(symbol x, x), (symbol y, y), (symbol z, z), (symbol u, u)] := by
    simp only [lastSextets, sextetAt_symbol hx, sextetAt_symbol hy, sextetAt_symbol hz,
      sextetAt_symbol hu]
    rfl
  simp only [decodeLast, hsplit.1, hsplit.2, hread, bind, Except.bind]
  simp

theorem decodeFrom_cons (hz : z < 64) (hu : u < 64) {rest bytes : List UInt8} (hne : rest ≠ [])
    (hrest : decodeFrom (place + 4) rest = .ok bytes) :
    decodeFrom place (symbol x :: symbol y :: symbol z :: symbol u :: rest) =
      .ok (groupBytes x y z u ++ bytes) := by
  cases rest with
  | nil => exact absurd rfl hne
  | cons next more =>
      simp only [decodeFrom, sextetAt_symbol hx, sextetAt_symbol hy, sextetAt_symbol hz,
        sextetAt_symbol hu, hrest]
      rfl

end read

/-! ## All groups -/

theorem length_encode_mod (bytes : List UInt8) : (encode bytes).length % 4 = 0 := by
  fun_induction encode bytes with
  | case1 => rfl
  | case2 => simp
  | case3 => simp
  | case4 a b c rest ih =>
      simp only [List.length_cons]
      omega

theorem encode_ne_nil {a : UInt8} {rest : List UInt8} : encode (a :: rest) ≠ [] := by
  match rest with
  | [] => exact List.cons_ne_nil _ _
  | [_] => exact List.cons_ne_nil _ _
  | _ :: _ :: _ => exact List.cons_ne_nil _ _

theorem encode_lt (bytes : List UInt8) : ∀ byte ∈ encode bytes, byte.toNat < 128 := by
  fun_induction encode bytes with
  | case1 => exact List.forall_mem_nil _
  | case2 a =>
      simp only [List.forall_mem_cons]
      exact ⟨symbol_lt (first_lt a), symbol_lt (by omega), by decide, by decide,
        List.forall_mem_nil _⟩
  | case3 a b =>
      simp only [List.forall_mem_cons]
      exact ⟨symbol_lt (first_lt a), symbol_lt (second_lt a b), symbol_lt (by omega), by decide,
        List.forall_mem_nil _⟩
  | case4 a b c rest ih =>
      simp only [List.forall_mem_cons]
      exact ⟨symbol_lt (first_lt a), symbol_lt (second_lt a b), symbol_lt (third_lt b c),
        symbol_lt (fourth_lt c), ih⟩

theorem decodeFrom_encode (bytes : List UInt8) (place : Nat) :
    decodeFrom place (encode bytes) = .ok bytes := by
  fun_induction encode bytes generalizing place with
  | case1 => rfl
  | case2 a =>
      have hbyte : a.toNat / 4 * 4 + a.toNat % 4 * 16 / 16 = a.toNat := by omega
      have hlast := decodeLast_two place (first_lt a)
        (show a.toNat % 4 * 16 < 64 by omega) (Nat.mul_mod_left _ _)
      rw [groupBytes, ofNat_eq hbyte] at hlast
      exact hlast
  | case3 a b =>
      have hgroup := groupBytes_eq a b 0
      have hthird : b.toNat % 16 * 4 < 64 := by omega
      have hlast := decodeLast_three place (first_lt a) (second_lt a b) hthird
        (Nat.mul_mod_left _ _)
      have hzero : b.toNat % 16 * 4 + (0 : UInt8).toNat / 64 = b.toNat % 16 * 4 := by simp
      rw [hzero] at hgroup
      rw [show (0 : Nat) = (0 : UInt8).toNat % 64 from rfl, hgroup] at hlast
      exact hlast
  | case4 a b c rest ih =>
      cases rest with
      | nil =>
          have hlast := decodeLast_four place (first_lt a) (second_lt a b) (third_lt b c)
            (fourth_lt c)
          rw [groupBytes_eq] at hlast
          exact hlast
      | cons next more =>
          have hcons := decodeFrom_cons place (first_lt a) (second_lt a b) (third_lt b c)
            (fourth_lt c) encode_ne_nil (ih (place + 4))
          rw [groupBytes_eq] at hcons
          exact hcons

theorem decode_encode (bytes : List UInt8) : decode (encode bytes) = .ok bytes := by
  unfold decode
  cases hl : (encode bytes).getLast? with
  | none =>
      cases bytes with
      | nil => rfl
      | cons a rest => exact absurd (List.getLast?_eq_none_iff.1 hl) encode_ne_nil
  | some last =>
      have hlength : ¬ (encode bytes).length % 4 = 1 := by
        rw [length_encode_mod]
        decide
      show (if _ then _ else _) = _
      rw [if_neg fun h => hlength h.1, decodeFrom_encode]

/-! ## What is read -/

theorem sextetAt_eq_ok {b : UInt8} {n place : Nat} (h : sextetAt place b = .ok n) :
    n < 64 ∧ symbol n = b := by
  have hall : ∀ k < 256, (sextet? (UInt8.ofNat k)).all fun n =>
      n < 64 ∧ symbol n = UInt8.ofNat k := by
    decide +kernel
  have hb := hall b.toNat b.toNat_lt
  unfold sextetAt at h
  split at h
  · next hn =>
    cases h
    rw [UInt8.ofNat_toNat, hn] at hb
    simpa using hb
  · cases h

theorem lastSextets_eq_ok {place : Nat} {group : List UInt8} {sextets : List (UInt8 × Nat)}
    (h : lastSextets place group = .ok sextets) :
    group = sextets.map (symbol ·.2) ∧ ∀ x ∈ sextets, x.2 < 64 := by
  induction group generalizing place sextets with
  | nil =>
      cases h
      exact ⟨rfl, nofun⟩
  | cons b rest ih =>
      simp only [lastSextets, bind_eq_ok_iff] at h
      obtain ⟨n, hn, more, hmore, heq⟩ := h
      cases heq
      obtain ⟨hlt, hsymbol⟩ := sextetAt_eq_ok hn
      obtain ⟨hrest, hall⟩ := ih hmore
      refine ⟨?_, List.forall_mem_cons.2 ⟨hlt, hall⟩⟩
      rw [List.map_cons, hsymbol, ← hrest]

section written

variable {x y z u : Nat}

theorem toNat_first (hx : x < 64) (hy : y < 64) :
    (UInt8.ofNat (x * 4 + y / 16)).toNat / 4 = x ∧
      (UInt8.ofNat (x * 4 + y / 16)).toNat % 4 = y / 16 := by
  rw [UInt8.toNat_ofNat', Nat.mod_eq_of_lt (by omega)]
  omega

theorem toNat_second (hz : z < 64) :
    (UInt8.ofNat (y % 16 * 16 + z / 4)).toNat / 16 = y % 16 ∧
      (UInt8.ofNat (y % 16 * 16 + z / 4)).toNat % 16 = z / 4 := by
  rw [UInt8.toNat_ofNat', Nat.mod_eq_of_lt (by omega)]
  omega

theorem toNat_third (hu : u < 64) :
    (UInt8.ofNat (z % 4 * 64 + u)).toNat / 64 = z % 4 ∧
      (UInt8.ofNat (z % 4 * 64 + u)).toNat % 64 = u := by
  rw [UInt8.toNat_ofNat', Nat.mod_eq_of_lt (by omega)]
  omega

theorem encode_groupBytes (hx : x < 64) (hy : y < 64) (hz : z < 64) (hu : u < 64)
    (rest : List UInt8) :
    encode (groupBytes x y z u ++ rest) =
      symbol x :: symbol y :: symbol z :: symbol u :: encode rest := by
  have hy' : y / 16 * 16 + y % 16 = y := by omega
  have hz' : z / 4 * 4 + z % 4 = z := by omega
  simp only [groupBytes, List.cons_append, List.nil_append, encode, toNat_first hx hy,
    toNat_second hz, toNat_third hu, hy', hz']

theorem encode_groupBytes_two (hx : x < 64) (hy : y < 64) (hz : z < 64) (hzero : z % 4 = 0) :
    encode ((groupBytes x y z 0).take 2) = [symbol x, symbol y, symbol z, pad] := by
  have hy' : y / 16 * 16 + y % 16 = y := by omega
  have hz' : z / 4 * 4 = z := by omega
  simp only [groupBytes, List.take, encode, toNat_first hx hy, toNat_second hz, hy', hz']

theorem encode_groupBytes_one (hx : x < 64) (hy : y < 64) (hzero : y % 16 = 0) :
    encode ((groupBytes x y 0 0).take 1) = [symbol x, symbol y, pad, pad] := by
  have hy' : y / 16 * 16 = y := by omega
  simp only [groupBytes, List.take, encode, toNat_first hx hy, hy']

end written

/-- The last group is the one that its bytes are written as. -/
theorem encode_of_decodeLast {place : Nat} {group bytes : List UInt8} (hlen : group.length ≤ 4)
    (h : decodeLast place group = .ok bytes) : encode bytes = group := by
  have hsplit : group.takeWhile (· ≠ pad) ++ group.dropWhile (· ≠ pad) = group :=
    List.takeWhile_append_dropWhile
  have hlength := congrArg List.length hsplit
  rw [List.length_append] at hlength
  simp only [decodeLast, bind_eq_ok_iff] at h
  generalize group.takeWhile (· ≠ pad) = symbols at h hsplit hlength
  generalize group.dropWhile (· ≠ pad) = padding at h hsplit hlength
  obtain ⟨sextets, hs, h⟩ := h
  obtain ⟨rfl, hall⟩ := lastSextets_eq_ok hs
  rw [List.length_map] at hlength
  split at h
  · cases h
  · next hbad =>
    have hpads : padding = List.replicate padding.length pad := by
      by_cases hne : padding = []
      · rw [hne]
        rfl
      · refine List.eq_replicate_iff.2 ⟨rfl, ?_⟩
        have hany : ¬ padding.any (· ≠ pad) = true := fun hany => hbad ⟨hne, .inr hany⟩
        simpa using hany
    split at h
    · next a _ b _ c _ d =>
      cases h
      simp only [List.forall_mem_cons] at hall
      obtain ⟨ha, hb, hc, hd, -⟩ := hall
      have hnone : padding.length = 0 := by
        simp only [List.length_cons, List.length_nil] at hlength
        omega
      have hencode := encode_groupBytes ha hb hc hd []
      rw [List.append_nil] at hencode
      rw [hencode, ← hsplit, hpads, hnone]
      rfl
    · next a _ b last c =>
      simp only [List.forall_mem_cons] at hall
      obtain ⟨ha, hb, hc, -⟩ := hall
      split at h
      · cases h
      · next hone =>
        split at h
        · cases h
        · next hzero =>
          cases h
          rw [encode_groupBytes_two ha hb hc (Decidable.not_not.1 hzero), ← hsplit, hpads,
            Decidable.not_not.1 hone]
          rfl
    · next a last b =>
      simp only [List.forall_mem_cons] at hall
      obtain ⟨ha, hb, -⟩ := hall
      split at h
      · cases h
      · next htwo =>
        split at h
        · cases h
        · next hzero =>
          cases h
          rw [encode_groupBytes_one ha hb (Decidable.not_not.1 hzero), ← hsplit, hpads,
            Decidable.not_not.1 htwo]
          rfl
    · cases h

theorem encode_of_decodeFrom {place : Nat} {text bytes : List UInt8}
    (h : decodeFrom place text = .ok bytes) : encode bytes = text := by
  fun_induction decodeFrom place text generalizing bytes with
  | case1 =>
      cases h
      rfl
  | case2 place a b c d next rest ih =>
      simp only [bind_eq_ok_iff] at h
      obtain ⟨x, hx, y, hy, z, hz, u, hu, more, hmore, heq⟩ := h
      cases heq
      obtain ⟨hx', rfl⟩ := sextetAt_eq_ok hx
      obtain ⟨hy', rfl⟩ := sextetAt_eq_ok hy
      obtain ⟨hz', rfl⟩ := sextetAt_eq_ok hz
      obtain ⟨hu', rfl⟩ := sextetAt_eq_ok hu
      rw [encode_groupBytes hx' hy' hz' hu', ih hmore]
  | case3 place group _ hlong =>
      refine encode_of_decodeLast ?_ h
      match group with
      | [] | [_] | [_, _] | [_, _, _] | [_, _, _, _] => simp
      | a :: b :: c :: d :: next :: rest => exact (hlong a b c d next rest rfl).elim

/-- Reading is strict: a text that is read is the one that its bytes are written as. -/
theorem encode_of_decode {text bytes : List UInt8} (h : decode text = .ok bytes) :
    encode bytes = text := by
  unfold decode at h
  split at h
  · split at h
    · cases h
    · exact encode_of_decodeFrom h
  · next hnone =>
    cases h
    exact (List.getLast?_eq_none_iff.1 hnone).symm

/-! ## The texts that are read, by their form -/

def isSymbol (b : UInt8) : Bool := (sextet? b).isSome

/-- A symbol whose number is a multiple of `unit`. -/
def isMultiple (unit : Nat) (b : UInt8) : Bool := (sextet? b).any (· % unit = 0)

/-- A last group with one or two symbols of padding. The bits of the symbol before the padding
that belong to no byte are zero. -/
def isPadded (a b c d : UInt8) : Bool :=
  isSymbol a && d == pad && (isMultiple 16 b && c == pad || isSymbol b && isMultiple 4 c)

/-- A text in groups of four, all of symbols but for the padding of the last one. -/
def isCanonical : List UInt8 → Bool
  | [] => true
  | a :: b :: c :: d :: rest =>
    [a, b, c, d].all isSymbol && isCanonical rest || rest.isEmpty && isPadded a b c d
  | _ => false

theorem of_sextet? {b : UInt8} {n : Nat} (h : sextet? b = some n) : n < 64 ∧ symbol n = b :=
  sextetAt_eq_ok (show sextetAt 0 b = .ok n by rw [sextetAt, h])

theorem isSymbol_iff {b : UInt8} : isSymbol b = true ↔ ∃ n < 64, symbol n = b := by
  constructor
  · intro h
    obtain ⟨n, hn⟩ := Option.isSome_iff_exists.1 h
    exact ⟨n, of_sextet? hn⟩
  · rintro ⟨n, hn, rfl⟩
    rw [isSymbol, sextet?_symbol hn]
    rfl

theorem isMultiple_iff {unit : Nat} {b : UInt8} :
    isMultiple unit b = true ↔ ∃ n < 64, n % unit = 0 ∧ symbol n = b := by
  constructor
  · intro h
    obtain ⟨n, hn, hzero⟩ := (Option.any_eq_true _ _).1 h
    obtain ⟨hlt, hsymbol⟩ := of_sextet? hn
    exact ⟨n, hlt, of_decide_eq_true hzero, hsymbol⟩
  · rintro ⟨n, hn, hzero, rfl⟩
    rw [isMultiple, sextet?_symbol hn]
    exact decide_eq_true hzero

theorem isSymbol_symbol {n : Nat} (h : n < 64) : isSymbol (symbol n) = true :=
  isSymbol_iff.2 ⟨n, h, rfl⟩

theorem isMultiple_symbol {unit n : Nat} (h : n < 64) (hzero : n % unit = 0) :
    isMultiple unit (symbol n) = true :=
  isMultiple_iff.2 ⟨n, h, hzero, rfl⟩

theorem isCanonical_encode (bytes : List UInt8) : isCanonical (encode bytes) = true := by
  fun_induction encode bytes with
  | case1 => rfl
  | case2 a =>
      have hlast : isMultiple 16 (symbol (a.toNat % 4 * 16)) = true :=
        isMultiple_symbol (by omega) (Nat.mul_mod_left _ _)
      simp [isCanonical, isPadded, isSymbol_symbol (first_lt a), hlast]
  | case3 a b =>
      have hlast : isMultiple 4 (symbol (b.toNat % 16 * 4)) = true :=
        isMultiple_symbol (by omega) (Nat.mul_mod_left _ _)
      simp [isCanonical, isPadded, isSymbol_symbol (first_lt a), isSymbol_symbol (second_lt a b),
        hlast]
  | case4 a b c rest ih =>
      simp [isCanonical, isSymbol_symbol (first_lt a), isSymbol_symbol (second_lt a b),
        isSymbol_symbol (third_lt b c), isSymbol_symbol (fourth_lt c), ih]

/-- The texts of that form are those that are written. -/
theorem exists_encode_of_isCanonical {text : List UInt8} (h : isCanonical text = true) :
    ∃ bytes, encode bytes = text := by
  fun_induction isCanonical text with
  | case1 => exact ⟨[], rfl⟩
  | case2 a b c d rest ih =>
      rcases Bool.or_eq_true_iff.1 h with hfull | hlast
      · simp only [List.all_cons, List.all_nil, Bool.and_eq_true, isSymbol_iff] at hfull
        obtain ⟨⟨⟨x, hx, rfl⟩, ⟨y, hy, rfl⟩, ⟨z, hz, rfl⟩, ⟨u, hu, rfl⟩, -⟩, hrest⟩ := hfull
        obtain ⟨bytes, rfl⟩ := ih hrest
        exact ⟨_, encode_groupBytes hx hy hz hu bytes⟩
      · simp only [isPadded, Bool.and_eq_true, Bool.or_eq_true, isSymbol_iff, isMultiple_iff,
          beq_iff_eq, List.isEmpty_iff] at hlast
        obtain ⟨rfl, ⟨⟨x, hx, rfl⟩, rfl⟩, hpadding⟩ := hlast
        rcases hpadding with ⟨⟨y, hy, hzero, rfl⟩, rfl⟩ | ⟨⟨y, hy, rfl⟩, z, hz, hzero, rfl⟩
        · exact ⟨_, encode_groupBytes_one hx hy hzero⟩
        · exact ⟨_, encode_groupBytes_two hx hy hz hzero⟩
  | case3 => cases h

end Base64

end SharedState
