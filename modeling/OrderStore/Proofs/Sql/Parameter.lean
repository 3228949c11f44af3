import OrderStore.Proofs.Sql.Template
import OrderStore.Proofs.Value.Integer
import Mathlib.Data.List.Nodup

namespace OrderStore.Sql

open Text (Code)

inductive Stem where
  | criterion (c : Criterion)
  | type
  | status
  | buyer
  | key (side : Side)
  | value (side : Side)
  deriving DecidableEq

namespace Stem

def sideWord : Side → String
  | .relations => "rel"
  | .indexed => "idx"

def criterionWords : Criterion → List String
  | .types => ["types"]
  | .statuses => ["statuses"]
  | .buyerId => ["buyer", "id"]
  | .buyerIds => ["buyer", "ids"]
  | .orderNo => ["order", "no"]
  | .orderNoLike => ["order", "no", "like"]
  | .keyword => ["keyword"]
  | .relations => ["relations"]
  | .indexedFields => ["indexed", "fields"]
  | .createdFrom => ["created", "from"]
  | .createdTo => ["created", "to"]
  | .updatedFrom => ["updated", "from"]
  | .updatedTo => ["updated", "to"]
  | .amountMin => ["amount", "min"]
  | .amountMax => ["amount", "max"]
  | .limit => ["limit"]
  | .offset => ["offset"]
  | .column => ["order", "column"]
  | .direction => ["order", "direction"]
  | .includeTotal => ["include", "total"]

def words : Stem → List String
  | criterion c => criterionWords c
  | type => ["type"]
  | status => ["status"]
  | buyer => ["buyer"]
  | key side => [sideWord side, "key"]
  | value side => [sideWord side, "val"]

def all : List Stem :=
  Criterion.all.map criterion ++ [type, status, buyer, key .relations, key .indexed, value .relations,
    value .indexed]

def ofWords? (ws : List (List Code)) : Option Stem :=
  all.find? fun s => s.words.map (fun w => (Text.ofString w).codes) == ws

theorem ofWords?_words (s : Stem) :
    ofWords? (s.words.map fun w => (Text.ofString w).codes) = some s := by
  cases s with
  | criterion c => cases c <;> rfl
  | type => rfl
  | status => rfl
  | buyer => rfl
  | key side => cases side <;> rfl
  | value side => cases side <;> rfl

def isStemWord (w : List Code) : Bool :=
  !w.isEmpty && w.all fun
    | .char c => c.isLower
    | .surrogate _ => false

theorem isStemWord_words (s : Stem) : ∀ w ∈ s.words, isStemWord (Text.ofString w).codes = true := by
  cases s with
  | criterion c => cases c <;> decide
  | type => decide
  | status => decide
  | buyer => decide
  | key side => cases side <;> decide
  | value side => cases side <;> decide

end Stem

structure Slot where
  stem : Stem
  counters : List Nat

namespace Slot

def words (s : Slot) : List (List Code) :=
  s.stem.words.map (fun w => (Text.ofString w).codes) ++
    s.counters.map fun n => (Text.ofString (Text.natText n)).codes

def name (s : Slot) : Text := ⟨List.intercalate [.char '_'] s.words⟩

theorem mem_word {s : Slot} {w : List Code} (h : w ∈ s.words) :
    Stem.isStemWord w = true ∨ ∃ n, w = (Text.ofString (Text.natText n)).codes := by
  rcases List.mem_append.mp h with h | h
  · obtain ⟨x, hx, rfl⟩ := List.mem_map.mp h
    exact .inl (Stem.isStemWord_words s.stem x hx)
  · obtain ⟨n, -, rfl⟩ := List.mem_map.mp h
    exact .inr ⟨n, rfl⟩

theorem isDigit_of_mem_counter {n : Nat} {c : Code} (h : c ∈ (Text.ofString (Text.natText n)).codes) :
    ∃ d, c = .char d ∧ Text.isDigit d = true := by
  rw [Text.ofString, Text.natText, String.toList_ofList, Text.codes_ofChars] at h
  obtain ⟨d, hd, rfl⟩ := List.mem_map.mp h
  exact ⟨d, rfl, Text.isDigit_of_mem_natChars hd⟩

theorem isLower_of_mem_stem {w : List Code} (hw : Stem.isStemWord w = true) {c : Code} (h : c ∈ w) :
    ∃ d, c = .char d ∧ d.isLower = true := by
  rw [Stem.isStemWord, Bool.and_eq_true] at hw
  have hc := List.all_eq_true.mp hw.2 c h
  cases c with
  | char d => exact ⟨d, rfl, hc⟩
  | surrogate i => cases hc

theorem underscore_not_mem {s : Slot} {w : List Code} (h : w ∈ s.words) : Code.char '_' ∉ w := by
  intro hmem
  rcases mem_word h with hw | ⟨n, rfl⟩
  · obtain ⟨d, hd, hl⟩ := isLower_of_mem_stem hw hmem
    cases hd
    cases hl
  · obtain ⟨d, hd, hdigit⟩ := isDigit_of_mem_counter hmem
    cases hd
    cases hdigit

theorem words_ne_nil (s : Slot) : s.words ≠ [] := by
  obtain ⟨stem, counters⟩ := s
  intro h
  have hstem := (List.append_eq_nil_iff.mp h).1
  cases stem with
  | criterion c => cases c <;> cases hstem
  | _ => cases hstem

theorem splitOn_name (s : Slot) : s.name.codes.splitOn (.char '_') = s.words :=
  List.splitOn_intercalate (.char '_') (fun _ => underscore_not_mem) s.words_ne_nil

theorem isStemWord_counter (n : Nat) : Stem.isStemWord (Text.ofString (Text.natText n)).codes = false := by
  apply Bool.eq_false_iff.mpr
  intro h
  cases hc : (Text.ofString (Text.natText n)).codes with
  | nil =>
    rw [hc] at h
    cases h
  | cons c cs =>
    have hmem : c ∈ (Text.ofString (Text.natText n)).codes := hc ▸ List.mem_cons_self
    obtain ⟨d, rfl, hl⟩ := isLower_of_mem_stem h hmem
    obtain ⟨e, he, hdigit⟩ := isDigit_of_mem_counter hmem
    cases he
    have hupper : '0' ≤ d ∧ d ≤ '9' := by simpa [Text.isDigit] using hdigit
    have hrange : (decide ('a' ≤ d) && decide (d ≤ 'z')) = true := hl
    have hlower : 'a' ≤ d := of_decide_eq_true (Bool.and_eq_true_iff.mp hrange).1
    exact absurd (Char.le_trans hlower hupper.2) (by decide)

theorem isStemWord_of_mem {s : Slot} {w : List Code}
    (h : w ∈ s.stem.words.map fun w => (Text.ofString w).codes) : Stem.isStemWord w = true := by
  obtain ⟨x, hx, rfl⟩ := List.mem_map.mp h
  exact Stem.isStemWord_words s.stem x hx

theorem takeWhile_words (s : Slot) :
    s.words.takeWhile Stem.isStemWord = s.stem.words.map fun w => (Text.ofString w).codes := by
  rw [words, List.takeWhile_append_of_pos fun _ => isStemWord_of_mem]
  cases s.counters with
  | nil => exact List.append_nil _
  | cons n ns =>
    rw [List.map_cons, List.takeWhile_cons_of_neg (by simp [isStemWord_counter])]
    exact List.append_nil _

theorem dropWhile_words (s : Slot) :
    s.words.dropWhile Stem.isStemWord = s.counters.map fun n => (Text.ofString (Text.natText n)).codes := by
  rw [words, List.dropWhile_append_of_pos fun _ => isStemWord_of_mem]
  cases s.counters with
  | nil => rfl
  | cons n ns => rw [List.map_cons, List.dropWhile_cons_of_neg (by simp [isStemWord_counter])]

theorem name_injective {s t : Slot} (h : s.name = t.name) : s = t := by
  -- The words are what underscores part, and the counters start at the first word with a digit.
  have hwords : s.words = t.words := by rw [← splitOn_name, ← splitOn_name, h]
  have hstem : s.stem = t.stem := by
    have hs := Stem.ofWords?_words s.stem
    rw [← takeWhile_words, hwords, takeWhile_words, Stem.ofWords?_words] at hs
    exact (Option.some.inj hs).symm
  have hcounters : s.counters = t.counters := by
    have hdrop := dropWhile_words s
    rw [hwords, dropWhile_words] at hdrop
    apply List.map_injective_iff.mpr _ hdrop.symm
    intro m n hmn
    exact Text.natText_injective (Text.ofString_inj.mp (congrArg Text.mk hmn))
  obtain ⟨stem, counters⟩ := s
  obtain ⟨stem', counters'⟩ := t
  cases hstem
  cases hcounters
  rfl

theorem name_nodup {slots : List Slot} (h : slots.Nodup) : (slots.map name).Nodup :=
  h.map fun _ _ => name_injective

theorem isWord_of_mem_word {s : Slot} {w : List Code} (hw : w ∈ s.words) {c : Code} (h : c ∈ w) :
    isWord c = true := by
  rcases mem_word hw with hw | ⟨n, rfl⟩
  · obtain ⟨d, rfl, hd⟩ := isLower_of_mem_stem hw h
    change ((d.isUpper || d.isLower || d.isDigit) || d == '_') = true
    simp [hd]
  · obtain ⟨d, rfl, hd⟩ := isDigit_of_mem_counter h
    have hdigit : d.isDigit = true := hd
    simp [isWord, Char.isAlphanum, hdigit]

theorem isWord_of_mem_name (s : Slot) : ∀ c ∈ s.name.codes, isWord c = true := by
  intro c hc
  rcases mem_intercalate hc with hc | ⟨w, hw, hc⟩
  · rw [List.mem_singleton.mp hc]
    rfl
  · exact isWord_of_mem_word hw hc

theorem name_ne_nil (s : Slot) : s.name.codes ≠ [] := by
  intro h
  have hsplit := s.splitOn_name
  rw [h] at hsplit
  obtain ⟨stem, counters⟩ := s
  cases stem with
  | criterion c => cases c <;> cases hsplit
  | key side => cases side <;> cases hsplit
  | value side => cases side <;> cases hsplit
  | _ => cases hsplit

def numbered (s : Slot) (n : Nat) : Slot := ⟨s.stem, s.counters ++ [n]⟩

theorem words_numbered (s : Slot) (n : Nat) :
    (s.numbered n).words = s.words ++ [(Text.ofString (Text.natText n)).codes] := by
  rw [words, words, numbered, List.map_append, List.append_assoc]
  rfl

theorem name_numbered (s : Slot) (n : Nat) : (s.numbered n).name = s.name ++ "_" ++ Text.natText n := by
  apply congrArg Text.mk
  rw [words_numbered, intercalate_concat s.words_ne_nil]
  rfl

theorem name_criterion (c : Criterion) : (⟨.criterion c, []⟩ : Slot).name = c.name := by
  cases c <;> rfl

def sideText (side : Side) : Text := Stem.sideWord side

theorem name_key (side : Side) (n : Nat) :
    (⟨.key side, [n]⟩ : Slot).name = sideText side ++ "_key_" ++ Text.natText n := by
  cases side with
  | relations => exact name_numbered ⟨.key .relations, []⟩ n
  | indexed => exact name_numbered ⟨.key .indexed, []⟩ n

theorem name_value (side : Side) (n : Nat) :
    (⟨.value side, [n]⟩ : Slot).name = sideText side ++ "_val_" ++ Text.natText n := by
  cases side with
  | relations => exact name_numbered ⟨.value .relations, []⟩ n
  | indexed => exact name_numbered ⟨.value .indexed, []⟩ n

theorem map_fst_numberedFrom (s : Slot) (i : Nat) (vs : List Value) :
    (Clause.numberedFrom s.name i vs).map Prod.fst =
      (List.range' i vs.length).map fun j => (s.numbered j).name := by
  rw [Clause.map_fst_numberedFrom]
  apply List.map_congr_left
  intro j _
  exact (name_numbered s j).symm

end Slot

end OrderStore.Sql
