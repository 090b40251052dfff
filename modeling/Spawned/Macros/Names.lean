import Mathlib.Data.List.Basic

/-!
# Names that `#[protocol]` makes

A struct is named after its method, and the module after its trait: `to_pascal_case` takes a name apart at its underscores,
`to_snake_case` puts them in before capital letters.

* `toSnakeCase`, `toPascalCase`, `stripProtocolSuffix` : the functions of the source, on the characters of a name;
* `CamelWord`, `SnakeWord` : the words that names of types and of methods are made of;
* `pascal_snake` : the name of a type comes back from its snake case;
* `toPascalCase_ne` : two methods have different structs.

Names are ASCII, where `to_uppercase` is one character and Rust and Lean agree on the classes of characters.
-/

namespace Spawned.Macros

/-- The loop of `to_snake_case`, with the character before. -/
def snakeFrom (prev : Option Char) : List Char → List Char
  | [] => []
  | ch :: chars =>
    if ch.isUpper then
      match prev with
      | none => ch.toLower :: snakeFrom (some ch) chars
      | some p =>
        let prevLower := p.isLower
        let nextLower := chars.head?.any Char.isLower
        if prevLower || nextLower then '_' :: ch.toLower :: snakeFrom (some ch) chars
        else ch.toLower :: snakeFrom (some ch) chars
    else ch :: snakeFrom (some ch) chars

def toSnakeCase (chars : List Char) : List Char := snakeFrom none chars

/-- A part of a name, from its first character on. -/
def capitalize : List Char → List Char
  | [] => []
  | c :: chars => c.toUpper :: chars

def toPascalCase (chars : List Char) : List Char :=
  (((chars.splitOn '_').filter fun part => !part.isEmpty).map capitalize).flatten

/-- `strip_protocol_suffix`. -/
def stripProtocolSuffix (name : List Char) : List Char :=
  if "Protocol".toList.isSuffixOf name then name.take (name.length - "Protocol".toList.length) else name

/-! ## Words -/

/-- A small letter or a digit. -/
def isTail (c : Char) : Bool := c.isLower || c.isDigit

/-- A word of a name in camel case: a capital letter, a small one, and more of these or digits. -/
def CamelWord (word : List Char) : Prop :=
  ∃ c d tail, word = c :: d :: tail ∧ c.isUpper = true ∧ d.isLower = true ∧ ∀ x ∈ tail, isTail x = true

/-- A word of a name in snake case: a small letter, and more of these or digits. -/
def SnakeWord (word : List Char) : Prop := ∃ c tail, word = c :: tail ∧ c.isLower = true ∧ ∀ x ∈ tail, isTail x = true

/-- The name of a method: its words, with underscores in between. -/
def snakeName (words : List (List Char)) : List Char := ['_'].intercalate words

/-! ## Letters -/

section Letters

variable {c : Char}

theorem isUpper_iff : c.isUpper = true ↔ 65 ≤ c.toNat ∧ c.toNat ≤ 90 := by
  have h : c.isUpper = decide (c.val ≥ 'A'.val ∧ c.val ≤ 'Z'.val) := rfl
  rw [h, decide_eq_true_eq, ge_iff_le, UInt32.le_iff_toNat_le, UInt32.le_iff_toNat_le]
  rfl

theorem isLower_iff : c.isLower = true ↔ 97 ≤ c.toNat ∧ c.toNat ≤ 122 := by
  have h : c.isLower = (decide (c.val ≥ 'a'.val) && decide (c.val ≤ 'z'.val)) := rfl
  rw [h, Bool.and_eq_true, decide_eq_true_eq, decide_eq_true_eq, ge_iff_le, UInt32.le_iff_toNat_le, UInt32.le_iff_toNat_le]
  rfl

theorem isDigit_iff : c.isDigit = true ↔ 48 ≤ c.toNat ∧ c.toNat ≤ 57 := by
  have h : c.isDigit = (decide (c.val ≥ '0'.val) && decide (c.val ≤ '9'.val)) := rfl
  rw [h, Bool.and_eq_true, decide_eq_true_eq, decide_eq_true_eq, ge_iff_le, UInt32.le_iff_toNat_le, UInt32.le_iff_toNat_le]
  rfl

theorem val_toLower (h : c.isUpper = true) : c.toLower.val = c.val + 32 := by
  have h' : c.val ≥ 'A'.val ∧ c.val ≤ 'Z'.val := isUpper_iff.mp h
  delta Char.toLower
  rw [dif_pos h']
  rfl

theorem val_toUpper (h : c.isLower = true) : c.toUpper.val = c.val - 32 := by
  have h' : c.val ≥ 'a'.val ∧ c.val ≤ 'z'.val := isLower_iff.mp h
  have hshift : 'A'.val - 'a'.val = -32 := rfl
  delta Char.toUpper
  rw [dif_pos h']
  show c.val + ('A'.val - 'a'.val) = c.val - 32
  rw [hshift]
  grind

theorem isLower_toLower (h : c.isUpper = true) : c.toLower.isLower = true := by
  have hc := isUpper_iff.mp h
  rw [isLower_iff, ← Char.toNat_val, val_toLower h, UInt32.toNat_add]
  simp
  omega

theorem isUpper_toUpper (h : c.isLower = true) : c.toUpper.isUpper = true := by
  have hc := isLower_iff.mp h
  rw [isUpper_iff, ← Char.toNat_val, val_toUpper h, UInt32.toNat_sub]
  simp
  omega

theorem toUpper_toLower (h : c.isUpper = true) : c.toLower.toUpper = c := by
  refine Char.ext ?_
  rw [val_toUpper (isLower_toLower h), val_toLower h]
  grind

theorem toLower_toUpper (h : c.isLower = true) : c.toUpper.toLower = c := by
  refine Char.ext ?_
  rw [val_toLower (isUpper_toUpper h), val_toUpper h]
  grind

theorem not_isUpper_of_isTail (h : isTail c = true) : c.isUpper = false := by
  rw [isTail, Bool.or_eq_true, isLower_iff, isDigit_iff] at h
  refine Bool.eq_false_iff.mpr fun hc => ?_
  have hupper := isUpper_iff.mp hc
  omega

theorem not_isTail_of_isUpper (h : c.isUpper = true) : isTail c = false := by
  by_contra hc
  rw [not_isUpper_of_isTail (by simpa using hc)] at h
  cases h

theorem isTail_of_isLower (h : c.isLower = true) : isTail c = true := by simp [isTail, h]

theorem ne_underscore_of_isTail (h : isTail c = true) : c ≠ '_' := by
  rintro rfl
  exact absurd h (by decide)

end Letters

/-! ## From camel case to snake case and back -/

def decapitalize : List Char → List Char
  | [] => []
  | c :: chars => c.toLower :: chars

theorem intercalate_cons (word : List Char) (words : List (List Char)) :
    ['_'].intercalate (word :: words) = word ++ (words.map ('_' :: ·)).flatten := by
  induction words generalizing word with
  | nil => simp
  | cons word' words ih => rw [List.intercalate_cons_cons, ih]; simp

theorem snakeFrom_tail {tail : List Char} (h : ∀ x ∈ tail, isTail x = true) (p : Char) (rest : List Char) :
    ∃ q, snakeFrom (some p) (tail ++ rest) = tail ++ snakeFrom (some q) rest := by
  induction tail generalizing p with
  | nil => exact ⟨p, rfl⟩
  | cons c tail ih =>
    obtain ⟨q, hq⟩ := ih (fun x hx => h x (List.mem_cons_of_mem _ hx)) c
    refine ⟨q, ?_⟩
    rw [List.cons_append, snakeFrom, not_isUpper_of_isTail (h c (List.mem_cons_self ..)), hq]
    rfl

/-- A word gets an underscore in front, as its second letter is a small one; save at the start. -/
theorem snakeFrom_word {word : List Char} (h : CamelWord word) (prev : Option Char) (rest : List Char) :
    ∃ q, snakeFrom prev (word ++ rest) =
      prev.elim [] (fun _ => ['_']) ++ decapitalize word ++ snakeFrom (some q) rest := by
  obtain ⟨c, d, tail, rfl, hc, hd, htail⟩ := h
  have htail' : ∀ x ∈ d :: tail, isTail x = true := by simpa [isTail_of_isLower hd] using htail
  obtain ⟨q, hq⟩ := snakeFrom_tail htail' c rest
  refine ⟨q, ?_⟩
  have hnext : (d :: tail ++ rest).head?.any Char.isLower = true := by simp [hd]
  cases prev with
  | none =>
    rw [List.cons_append, snakeFrom, if_pos hc, hq]
    rfl
  | some p =>
    rw [List.cons_append, snakeFrom, if_pos hc, hnext, hq]
    simp [decapitalize]

theorem snakeFrom_words {words : List (List Char)} (h : ∀ word ∈ words, CamelWord word) (p : Char) :
    snakeFrom (some p) words.flatten = ((words.map decapitalize).map ('_' :: ·)).flatten := by
  induction words generalizing p with
  | nil => rfl
  | cons word words ih =>
    obtain ⟨q, hq⟩ := snakeFrom_word (h word (List.mem_cons_self ..)) (some p) words.flatten
    rw [List.flatten_cons, hq, ih (fun w hw => h w (List.mem_cons_of_mem _ hw)) q]
    simp

theorem toSnakeCase_flatten {words : List (List Char)} (h : ∀ word ∈ words, CamelWord word) :
    toSnakeCase words.flatten = snakeName (words.map decapitalize) := by
  cases words with
  | nil => rfl
  | cons word words =>
    obtain ⟨q, hq⟩ := snakeFrom_word (h word (List.mem_cons_self ..)) none words.flatten
    rw [List.flatten_cons, toSnakeCase, hq, snakeFrom_words (fun w hw => h w (List.mem_cons_of_mem _ hw)) q,
      List.map_cons, snakeName, intercalate_cons]
    rfl

/-- Words without underscores are found again. -/
theorem toPascalCase_snakeName {words : List (List Char)} (h : ∀ word ∈ words, word ≠ [] ∧ '_' ∉ word) :
    toPascalCase (snakeName words) = (words.map capitalize).flatten := by
  have hfilter : words.filter (fun part => !part.isEmpty) = words :=
    List.filter_eq_self.mpr fun word hword => by simpa using (h word hword).1
  by_cases hne : words = []
  · subst hne
    rfl
  · rw [toPascalCase, snakeName, List.splitOn_intercalate '_' (fun word hword => (h word hword).2) hne, hfilter]

theorem SnakeWord.plain {word : List Char} (h : SnakeWord word) : word ≠ [] ∧ '_' ∉ word := by
  obtain ⟨c, tail, rfl, hc, htail⟩ := h
  refine ⟨List.cons_ne_nil _ _, fun hmem => ?_⟩
  rcases List.mem_cons.mp hmem with rfl | hmem
  · exact absurd hc (by decide)
  · exact ne_underscore_of_isTail (htail _ hmem) rfl

theorem CamelWord.decapitalize {word : List Char} (h : CamelWord word) : SnakeWord (decapitalize word) := by
  obtain ⟨c, d, tail, rfl, hc, hd, htail⟩ := h
  exact ⟨c.toLower, d :: tail, rfl, isLower_toLower hc, by simpa [isTail_of_isLower hd] using htail⟩

theorem capitalize_decapitalize {word : List Char} (h : CamelWord word) : capitalize (Macros.decapitalize word) = word := by
  obtain ⟨c, d, tail, rfl, hc, -, -⟩ := h
  rw [Macros.decapitalize, capitalize, toUpper_toLower hc]

/-- **The name of a type** in snake case is its words with underscores in between, and comes back from that, if each of
its words has a small letter after the capital one. -/
theorem pascal_snake {words : List (List Char)} (h : ∀ word ∈ words, CamelWord word) :
    toSnakeCase words.flatten = snakeName (words.map decapitalize) ∧
      toPascalCase (toSnakeCase words.flatten) = words.flatten := by
  have hplain : ∀ word ∈ words.map decapitalize, word ≠ [] ∧ '_' ∉ word := by
    intro word hword
    obtain ⟨camel, hcamel, rfl⟩ := List.mem_map.mp hword
    exact (h camel hcamel).decapitalize.plain
  have hback : (words.map decapitalize).map capitalize = words := by
    rw [List.map_map]
    exact (List.map_congr_left fun word hword => capitalize_decapitalize (h word hword)).trans (List.map_id words)
  refine ⟨toSnakeCase_flatten h, ?_⟩
  rw [toSnakeCase_flatten h, toPascalCase_snakeName hplain, hback]

theorem pascal_snake_chatRoom :
    toPascalCase (toSnakeCase ("Chat".toList ++ "Room2".toList)) = "ChatRoom2".toList := by
  have h : ∀ word ∈ ["Chat".toList, "Room2".toList], CamelWord word := by
    simp only [List.forall_mem_cons]
    exact ⟨⟨'C', 'h', "at".toList, rfl, by decide, by decide, List.all_eq_true.mp (by decide)⟩,
      ⟨'R', 'o', "om2".toList, rfl, by decide, by decide, List.all_eq_true.mp (by decide)⟩, by simp⟩
  exact (pascal_snake h).2

/-! ## Structs of different methods -/

/-- What a capitalized word begins with is in no tail. -/
theorem head_capitalized {words : List (List Char)} (h : ∀ word ∈ words, SnakeWord word) :
    ∀ x ∈ (words.map capitalize).flatten.head?, isTail x = false := by
  cases words with
  | nil => simp
  | cons word words =>
    obtain ⟨c, tail, rfl, hc, -⟩ := h word (List.mem_cons_self ..)
    intro x hx
    obtain rfl : c.toUpper = x := by simpa [capitalize] using hx
    exact not_isTail_of_isUpper (isUpper_toUpper hc)

theorem takeWhile_tail {tail rest : List Char} (h : ∀ x ∈ tail, isTail x = true)
    (hrest : ∀ x ∈ rest.head?, isTail x = false) : (tail ++ rest).takeWhile isTail = tail := by
  rw [List.takeWhile_append_of_pos h]
  cases rest with
  | nil => simp
  | cons c rest => simp [hrest c rfl]

/-- Capitalized words are told apart by their capital letters. -/
theorem capitalized_inj {words words' : List (List Char)} (h : ∀ word ∈ words, SnakeWord word)
    (h' : ∀ word ∈ words', SnakeWord word) (heq : (words.map capitalize).flatten = (words'.map capitalize).flatten) :
    words = words' := by
  induction words generalizing words' with
  | nil =>
    cases words' with
    | nil => rfl
    | cons word' words' =>
      obtain ⟨c, tail, rfl, -⟩ := h' word' (List.mem_cons_self ..)
      simp [capitalize] at heq
  | cons word words ih =>
    obtain ⟨c, tail, rfl, hc, htail⟩ := h word (List.mem_cons_self ..)
    cases words' with
    | nil => simp [capitalize] at heq
    | cons word' words' =>
      obtain ⟨c', tail', rfl, hc', htail'⟩ := h' word' (List.mem_cons_self ..)
      have hwords : ∀ word ∈ words, SnakeWord word := fun word hword => h word (List.mem_cons_of_mem _ hword)
      have hwords' : ∀ word ∈ words', SnakeWord word := fun word hword => h' word (List.mem_cons_of_mem _ hword)
      simp only [List.map_cons, List.flatten_cons, capitalize, List.cons_append, List.cons.injEq] at heq
      obtain ⟨hhead, hrest⟩ := heq
      have hletter : c = c' := by rw [← toLower_toUpper hc, hhead, toLower_toUpper hc']
      have htails : tail = tail' := by
        rw [← takeWhile_tail htail (head_capitalized hwords), hrest, takeWhile_tail htail' (head_capitalized hwords')]
      rw [htails] at hrest
      rw [hletter, htails, ih hwords hwords' (List.append_cancel_left hrest)]

/-- Different methods have different structs, if the words of their names begin with letters. -/
theorem toPascalCase_ne {words words' : List (List Char)} (h : ∀ word ∈ words, SnakeWord word)
    (h' : ∀ word ∈ words', SnakeWord word) (hne : snakeName words ≠ snakeName words') :
    toPascalCase (snakeName words) ≠ toPascalCase (snakeName words') := by
  intro heq
  rw [toPascalCase_snakeName fun word hword => (h word hword).plain,
    toPascalCase_snakeName fun word hword => (h' word hword).plain] at heq
  exact hne (congrArg snakeName (capitalized_inj h h' heq))

end Spawned.Macros
