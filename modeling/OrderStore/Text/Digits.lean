namespace OrderStore.Text

def digitZeros : List Nat :=
  [0x30, 0x660, 0x6F0, 0x7C0, 0x966, 0x9E6, 0xA66, 0xAE6, 0xB66, 0xBE6, 0xC66, 0xCE6, 0xD66,
   0xDE6, 0xE50, 0xED0, 0xF20, 0x1040, 0x1090, 0x17E0, 0x1810, 0x1946, 0x19D0, 0x1A80, 0x1A90,
   0x1B50, 0x1BB0, 0x1C40, 0x1C50, 0xA620, 0xA8D0, 0xA900, 0xA9D0, 0xA9F0, 0xAA50, 0xABF0,
   0xFF10, 0x104A0, 0x10D30, 0x11066, 0x110F0, 0x11136, 0x111D0, 0x112F0, 0x11450, 0x114D0,
   0x11650, 0x116C0, 0x11730, 0x118E0, 0x11950, 0x11C50, 0x11D50, 0x11DA0, 0x16A60, 0x16AC0,
   0x16B50, 0x1D7CE, 0x1D7D8, 0x1D7E2, 0x1D7EC, 0x1D7F6, 0x1E140, 0x1E2F0, 0x1E950, 0x1FBF0]

def digit? (c : Char) : Option Nat :=
  (digitZeros.find? fun z => z ≤ c.toNat && c.toNat < z + 10).map fun z => c.toNat - z

def isDigit (c : Char) : Bool := '0' ≤ c && c ≤ '9'

def asciiDigit? (c : Char) : Option Nat :=
  if isDigit c then some (c.toNat - 48) else none

def digitChar (d : Nat) : Char := Char.ofNat (48 + d)

def ofDigits (ds : List Nat) : Nat := ds.foldl (fun n d => 10 * n + d) 0

def digitsWithin : Nat → Nat → List Nat
  | 0, n => [n % 10]
  | fuel + 1, n => if n < 10 then [n] else digitsWithin fuel (n / 10) ++ [n % 10]

def digits (n : Nat) : List Nat := digitsWithin n n

def natChars (n : Nat) : List Char := (digits n).map digitChar

def natText (n : Nat) : String := String.ofList (natChars n)

def intText : Int → String
  | .ofNat n => natText n
  | .negSucc n => "-" ++ natText (n + 1)

def padded : Nat → Nat → List Char
  | 0, _ => []
  | width + 1, n => padded width (n / 10) ++ [digitChar (n % 10)]

def readNat? (cs : List Char) : Option Nat :=
  if cs.isEmpty then none else (cs.mapM asciiDigit?).map ofDigits

theorem ofDigits_append_singleton (ds : List Nat) (d : Nat) :
    ofDigits (ds ++ [d]) = 10 * ofDigits ds + d := by
  simp [ofDigits, List.foldl_append]

theorem ofDigits_digitsWithin {fuel n : Nat} (h : n ≤ fuel) : ofDigits (digitsWithin fuel n) = n := by
  induction fuel generalizing n with
  | zero => obtain rfl : n = 0 := by omega
            rfl
  | succ fuel ih =>
    rw [digitsWithin]
    split
    · simp [ofDigits]
    · rw [ofDigits_append_singleton, ih (by omega)]
      omega

theorem ofDigits_digits (n : Nat) : ofDigits (digits n) = n := ofDigits_digitsWithin (Nat.le_refl n)

theorem lt_ten_of_mem_digitsWithin {fuel n d : Nat} (h : d ∈ digitsWithin fuel n) : d < 10 := by
  induction fuel generalizing n with
  | zero => simp [digitsWithin] at h; omega
  | succ fuel ih =>
    rw [digitsWithin] at h
    split at h
    · simp at h; omega
    · rcases List.mem_append.1 h with h | h
      · exact ih h
      · simp at h; omega

theorem lt_ten_of_mem_digits {n d : Nat} (h : d ∈ digits n) : d < 10 := lt_ten_of_mem_digitsWithin h

theorem digits_ne_nil (n : Nat) : digits n ≠ [] := by
  rw [digits]
  cases n with
  | zero => simp [digitsWithin]
  | succ n => rw [digitsWithin]; split <;> simp

theorem asciiDigit?_digitChar {d : Nat} (h : d < 10) : asciiDigit? (digitChar d) = some d := by
  have hd : d = 0 ∨ d = 1 ∨ d = 2 ∨ d = 3 ∨ d = 4 ∨ d = 5 ∨ d = 6 ∨ d = 7 ∨ d = 8 ∨ d = 9 := by omega
  rcases hd with rfl | rfl | rfl | rfl | rfl | rfl | rfl | rfl | rfl | rfl <;> decide

theorem mapM_asciiDigit?_map_digitChar {ds : List Nat} (h : ∀ d ∈ ds, d < 10) :
    (ds.map digitChar).mapM asciiDigit? = some ds := by
  induction ds with
  | nil => rfl
  | cons d ds ih =>
    simp [List.mapM_cons, asciiDigit?_digitChar (h d (by simp)), ih fun x hx => h x (by simp [hx])]

theorem readNat?_natChars (n : Nat) : readNat? (natChars n) = some n := by
  simp [readNat?, natChars, digits_ne_nil, ofDigits_digits,
    mapM_asciiDigit?_map_digitChar fun d h => lt_ten_of_mem_digits h]

end OrderStore.Text
