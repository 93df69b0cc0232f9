import Mathlib.Tactic.NormNum
import Mathlib.Tactic.Ring
import PdeOperator.BaseText

/-! UUIDs and their canonical text `8-4-4-4-12`, which names a UUID uniquely and is read back. -/

namespace PdeOperator.Base

/-- A 128-bit identifier; the order is the order of the number, as in a database. -/
abbrev Uuid := BitVec 128

namespace Uuid

def hexDigit (n : Nat) : Char := Char.ofNat (if n < 10 then 48 + n else 87 + n)

/-- The lower `width` hexadecimal digits of a number. -/
def hex : Nat → Nat → Text
  | 0, _ => []
  | width + 1, n => hex width (n / 16) ++ [hexDigit (n % 16)]

/-- `str(uuid)` -/
def str (id : Uuid) : Text :=
  hex 8 (id.toNat / 16 ^ 24) ++ '-' :: (hex 4 (id.toNat / 16 ^ 20) ++ '-' ::
    (hex 4 (id.toNat / 16 ^ 16) ++ '-' :: (hex 4 (id.toNat / 16 ^ 12) ++ '-' :: hex 12 id.toNat)))

theorem hexDigit_injective {m n : Nat} (hm : m < 16) (hn : n < 16) (h : hexDigit m = hexDigit n) :
    m = n := by
  have hfin : ∀ i j : Fin 16, hexDigit i.val = hexDigit j.val → i = j := by decide
  exact congrArg Fin.val (hfin ⟨m, hm⟩ ⟨n, hn⟩ h)

@[simp] theorem length_hex (width n : Nat) : (hex width n).length = width := by
  induction width generalizing n with
  | zero => rfl
  | succ width ih => rw [hex, List.length_append, ih, List.length_singleton]

theorem length_str (id : Uuid) : (str id).length = 36 := by
  simp [str]

/-- The digits determine the number up to the places that are cut off. -/
theorem hex_mod_eq {width m n : Nat} (h : hex width m = hex width n) :
    m % 16 ^ width = n % 16 ^ width := by
  induction width generalizing m n with
  | zero => simp [Nat.mod_one]
  | succ width ih =>
      obtain ⟨hinit, hlast⟩ := List.append_inj h (by simp)
      have hdigit : m % 16 = n % 16 :=
        hexDigit_injective (Nat.mod_lt _ (by decide)) (Nat.mod_lt _ (by decide))
          (List.cons.inj hlast).1
      have hrest := ih hinit
      rw [Nat.pow_succ', Nat.mod_mul, Nat.mod_mul, hdigit, hrest]

theorem str_injective {a b : Uuid} (h : str a = str b) : a = b := by
  obtain ⟨h8, h⟩ := List.append_inj h (by simp)
  obtain ⟨h4, h⟩ := List.append_inj (List.cons.inj h).2 (by simp)
  obtain ⟨h4', h⟩ := List.append_inj (List.cons.inj h).2 (by simp)
  obtain ⟨h4'', h⟩ := List.append_inj (List.cons.inj h).2 (by simp)
  have h12 := (List.cons.inj h).2
  have e8 := hex_mod_eq h8
  have e4 := hex_mod_eq h4
  have e4' := hex_mod_eq h4'
  have e4'' := hex_mod_eq h4''
  have e12 := hex_mod_eq h12
  have ha : a.toNat < 2 ^ 128 := a.isLt
  have hb : b.toNat < 2 ^ 128 := b.isLt
  apply BitVec.eq_of_toNat_eq
  norm_num at e8 e4 e4' e4'' e12 ha hb
  omega

def hexValue (c : Char) : Option Nat :=
  let n := c.toNat
  if 48 ≤ n ∧ n ≤ 57 then some (n - 48)
  else if 97 ≤ n ∧ n ≤ 102 then some (n - 87)
  else if 65 ≤ n ∧ n ≤ 70 then some (n - 55)
  else none

/-- The number that hexadecimal digits denote; `value` is what the earlier digits denote. -/
def readHex (value : Nat) : Text → Option Nat
  | [] => some value
  | c :: rest => (hexValue c).bind fun digit => readHex (16 * value + digit) rest

/-- `UUID(text)` of 32 hexadecimal digits with hyphens anywhere. -/
def ofText (s : Text) : Option Uuid :=
  let digits := s.filter (· != '-')
  if digits.length = 32 then (readHex 0 digits).map (BitVec.ofNat 128) else none

theorem hexValue_hexDigit {n : Nat} (h : n < 16) : hexValue (hexDigit n) = some n := by
  have hfin : ∀ i : Fin 16, hexValue (hexDigit i.val) = some i.val := by decide
  exact hfin ⟨n, h⟩

theorem readHex_append (value : Nat) (s t : Text) :
    readHex value (s ++ t) = (readHex value s).bind fun v => readHex v t := by
  induction s generalizing value with
  | nil => rfl
  | cons c s ih =>
      rw [List.cons_append, readHex, readHex, Option.bind_assoc]
      congr
      funext digit
      exact ih _

theorem readHex_hex (value width n : Nat) :
    readHex value (hex width n) = some (16 ^ width * value + n % 16 ^ width) := by
  induction width generalizing n with
  | zero => simp [hex, readHex, Nat.mod_one]
  | succ width ih =>
      have hlast : n % 16 < 16 := Nat.mod_lt _ (by decide)
      rw [hex, readHex_append, ih, Option.bind_some, readHex, hexValue_hexDigit hlast,
        Option.bind_some, readHex, Nat.pow_succ', Nat.mod_mul]
      congr 1
      ring

/-- Digits that are written one after the other are the digits of one number. -/
theorem hex_add (a b n : Nat) : hex (a + b) n = hex a (n / 16 ^ b) ++ hex b n := by
  induction b generalizing n with
  | zero => simp [hex]
  | succ b ih =>
      rw [← Nat.add_assoc, hex, hex, ih, List.append_assoc, Nat.div_div_eq_div_mul, Nat.pow_succ']

theorem all_hex {p : Char → Bool} (hp : ∀ i : Fin 16, p (hexDigit i.val) = true) (width n : Nat) :
    ∀ c ∈ hex width n, p c = true := by
  induction width generalizing n with
  | zero => exact fun c hc => absurd hc List.not_mem_nil
  | succ width ih =>
      intro c hc
      rcases List.mem_append.mp hc with hinit | hlast
      · exact ih _ c hinit
      · rw [List.mem_singleton.mp hlast]
        exact hp ⟨n % 16, Nat.mod_lt _ (by decide)⟩

/-- The text consists of hexadecimal digits and hyphens. -/
theorem all_str {p : Char → Bool} (hp : ∀ i : Fin 16, p (hexDigit i.val) = true) (hhyphen : p '-' = true)
    (id : Uuid) : ∀ c ∈ str id, p c = true := by
  intro c hc
  simp only [str, List.mem_append, List.mem_cons] at hc
  rcases hc with h | rfl | h | rfl | h | rfl | h | rfl | h <;>
    first | exact hhyphen | exact all_hex hp _ _ c h

theorem filter_str (id : Uuid) : (str id).filter (· != '-') = hex 32 id.toNat := by
  have hkeep : ∀ width n, (hex width n).filter (· != '-') = hex width n := fun width n =>
    List.filter_eq_self.mpr (all_hex (by decide) width n)
  have hcut : ∀ s : Text, ('-' :: s).filter (· != '-') = s.filter (· != '-') := fun s => rfl
  rw [show hex 32 id.toNat = hex (8 + (4 + (4 + (4 + 12)))) id.toNat from rfl]
  simp only [str, List.filter_append, hcut, hkeep, hex_add]

/-- A UUID is read back from its canonical text. -/
theorem ofText_str (id : Uuid) : ofText (str id) = some id := by
  have hbound : id.toNat < 16 ^ 32 := id.isLt
  rw [ofText, filter_str, if_pos (length_hex _ _), readHex_hex, Nat.mod_eq_of_lt hbound,
    Nat.mul_zero, Nat.zero_add, Option.map_some, BitVec.ofNat_toNat, BitVec.setWidth_eq]

end Uuid
end PdeOperator.Base
