import OrderStore.Text.Code
/-!
Texts: sequences of codes. Every string is a text, and two strings are one text only if they are
equal; a text with a surrogate is no string.
-/

namespace OrderStore

structure Text where
  codes : List Text.Code
  deriving DecidableEq, Repr, Inhabited

namespace Text

def ofChars (cs : List Char) : Text := ⟨cs.map .char⟩

def ofString (s : String) : Text := ofChars s.toList

instance : Coe String Text := ⟨ofString⟩

instance : Append Text := ⟨fun s t => ⟨s.codes ++ t.codes⟩⟩

instance : LT Text := ⟨fun s t => s.codes.map Code.toNat < t.codes.map Code.toNat⟩

instance (s t : Text) : Decidable (s < t) :=
  inferInstanceAs (Decidable (s.codes.map Code.toNat < t.codes.map Code.toNat))

def isEmpty (t : Text) : Bool := t.codes.isEmpty

def string? (t : Text) : Option String := (t.codes.mapM Code.char?).map String.ofList

def chars (t : Text) : List Char := t.codes.map fun c => c.char?.getD '\uFFFD'

def join (ts : List Text) : Text := ⟨ts.flatMap codes⟩

def intercalate (separator : Text) (ts : List Text) : Text :=
  ⟨separator.codes.intercalate (ts.map codes)⟩

@[simp] theorem codes_append (s t : Text) : (s ++ t).codes = s.codes ++ t.codes := rfl

@[simp] theorem codes_ofChars (cs : List Char) : (ofChars cs).codes = cs.map .char := rfl

theorem ofChars_append (cs ds : List Char) : ofChars (cs ++ ds) = ofChars cs ++ ofChars ds :=
  congrArg Text.mk List.map_append

theorem ofString_append (s t : String) : ofString (s ++ t) = ofString s ++ ofString t := by
  rw [ofString, String.toList_append, ofChars_append]
  rfl

theorem append_assoc (s t u : Text) : s ++ t ++ u = s ++ (t ++ u) :=
  congrArg Text.mk (List.append_assoc _ _ _)

@[simp] theorem chars_ofChars (cs : List Char) : (ofChars cs).chars = cs := by
  simp [chars, ofChars, Code.char?, Function.comp_def]

@[simp] theorem chars_ofString (s : String) : (ofString s).chars = s.toList := chars_ofChars _

theorem mapM_char?_map_char (cs : List Char) : (cs.map Code.char).mapM Code.char? = some cs := by
  induction cs with
  | nil => rfl
  | cons c cs ih => simp [List.mapM_cons, Code.char?, ih]

@[simp] theorem string?_ofString (s : String) : (ofString s).string? = some s := by
  rw [string?, ofString, codes_ofChars, mapM_char?_map_char, Option.map_some, String.ofList_toList]

@[simp] theorem ofString_inj {s t : String} : ofString s = ofString t ↔ s = t := by
  refine ⟨fun h => ?_, fun h => h ▸ rfl⟩
  have := string?_ofString s
  rw [h, string?_ofString] at this
  exact (Option.some.inj this).symm

end Text

end OrderStore
