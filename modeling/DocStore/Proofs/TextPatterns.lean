import DocStore.Filter.Match
import DocStore.Mongo.Query

/-!
# Patterns of text operators

Text operators are sent to a server as patterns, and the server searches a text for a pattern. What
is assumed of the search is what the manual of such patterns says about the few forms that are sent:
signs that stand for themselves, signs behind a backslash, and the anchors of a start and of an end.
The search itself is a parameter.

Main statement: the patterns of containment and of a prefix are found exactly in the texts that the
operators accept, whatever signs the needle is made of. That of a suffix is found in some more. The
anchor of an end also holds just before a newline that ends the text, so the needle may stand there
as well.
-/

namespace DocStore.Mongo

/-- The signs that a pattern does not take for themselves outside brackets. -/
def liveSigns : List Char := ['\\', '^', '$', '.', '[', '|', '(', ')', '?', '*', '+', '\x7b']

/-- True for the punctuation of ASCII, in its four ranges between digits and letters. A backslash
makes these stand for themselves. -/
def isPunctuation (sign : Char) : Bool :=
  let code := sign.toNat
  decide ((0x21 ≤ code ∧ code ≤ 0x2f) ∨ (0x3a ≤ code ∧ code ≤ 0x40) ∨
    (0x5b ≤ code ∧ code ≤ 0x60) ∨ (0x7b ≤ code ∧ code ≤ 0x7e))

/-- Patterns of signs that are ordinary or behind a backslash, with or without an anchor of the end
behind them. -/
inductive PlainPattern : List Char → Prop where
  | nothing : PlainPattern []
  | finish : PlainPattern ['$']
  | ordinary {sign : Char} {rest : List Char} (plain : sign ∉ liveSigns)
      (tail : PlainPattern rest) : PlainPattern (sign :: rest)
  | escaped {sign : Char} {rest : List Char} (punctuation : isPunctuation sign = true)
      (tail : PlainPattern rest) : PlainPattern ('\\' :: sign :: rest)

/-- A search for patterns. Besides what it answers for a whole text it tells whether a pattern fits
at a position of a text, given the signs before the position and those behind it. -/
structure PatternSearch where
  finds : String → String → Bool
  fits : List Char → List Char → List Char → Bool

namespace PatternSearch

/-- What the manual says of a search: the pattern may fit anywhere in the text, a leading anchor
fits at the start of the text only, an anchor at the end fits at the end of the text or before a
newline that ends it, and any other sign, behind a backslash or not, is one sign of the text. -/
structure Documented (search : PatternSearch) : Prop where
  anywhere : ∀ pattern subject : String, search.finds pattern subject = true ↔
    ∃ before behind, subject.toList = before ++ behind ∧
      search.fits pattern.toList before behind = true
  nothing : ∀ before behind : List Char, search.fits [] before behind = true
  start : ∀ {pattern : List Char}, PlainPattern pattern → ∀ before behind : List Char,
    (search.fits ('^' :: pattern) before behind = true ↔
      before = [] ∧ search.fits pattern before behind = true)
  finish : ∀ before behind : List Char,
    search.fits ['$'] before behind = true ↔ behind = [] ∨ behind = ['\n']
  ordinary : ∀ {sign : Char} {pattern : List Char}, sign ∉ liveSigns → PlainPattern pattern →
    ∀ before behind : List Char, (search.fits (sign :: pattern) before behind = true ↔
      ∃ rest, behind = sign :: rest ∧ search.fits pattern (before ++ [sign]) rest = true)
  escaped : ∀ {sign : Char} {pattern : List Char}, isPunctuation sign = true →
    PlainPattern pattern → ∀ before behind : List Char,
      (search.fits ('\\' :: sign :: pattern) before behind = true ↔
        ∃ rest, behind = sign :: rest ∧ search.fits pattern (before ++ [sign]) rest = true)

end PatternSearch

/-- A sign that is escaped may be. -/
theorem isPunctuation_of_mem_metaCharacters {sign : Char} (special : sign ∈ metaCharacters) :
    isPunctuation sign = true := by
  have every : metaCharacters.all isPunctuation = true := by decide
  exact List.all_eq_true.mp every sign special

/-- A sign that is not escaped need not be. -/
theorem not_mem_liveSigns {sign : Char} (plain : sign ∉ metaCharacters) : sign ∉ liveSigns := by
  have subset : liveSigns ⊆ metaCharacters := by decide
  exact fun live => plain (subset live)

/-- Escaped letters make a plain pattern of any other behind them. -/
theorem PlainPattern.escapeLetters_append {rest : List Char} (plain : PlainPattern rest)
    (letters : List Char) : PlainPattern (escapeLetters letters ++ rest) := by
  induction letters with
  | nil => exact plain
  | cons letter letters ih =>
      by_cases special : letter ∈ metaCharacters
      · simp only [escapeLetters, special, if_true]
        exact .escaped (isPunctuation_of_mem_metaCharacters special) ih
      · simp only [escapeLetters, special, if_false]
        exact .ordinary (not_mem_liveSigns special) ih

namespace PatternSearch.Documented

variable {search : PatternSearch}

/-- Escaped letters fit where the letters themselves stand, and the rest of the pattern goes on
behind them. The induction is on the letters; each of them is one sign of the text, escaped or
not. -/
theorem fits_escapeLetters_append (documented : search.Documented) {pattern : List Char}
    (plain : PlainPattern pattern) (letters before behind : List Char) :
    search.fits (escapeLetters letters ++ pattern) before behind = true ↔
      ∃ rest, behind = letters ++ rest ∧ search.fits pattern (before ++ letters) rest = true := by
  induction letters generalizing before behind with
  | nil => simp [escapeLetters]
  | cons letter letters ih =>
      have tail := plain.escapeLetters_append letters
      have first : search.fits (escapeLetters (letter :: letters) ++ pattern) before behind = true ↔
          ∃ rest, behind = letter :: rest ∧
            search.fits (escapeLetters letters ++ pattern) (before ++ [letter]) rest = true := by
        by_cases special : letter ∈ metaCharacters
        · simp only [escapeLetters, special, if_true]
          exact documented.escaped (isPunctuation_of_mem_metaCharacters special) tail before behind
        · simp only [escapeLetters, special, if_false]
          exact documented.ordinary (not_mem_liveSigns special) tail before behind
      rw [first]
      simp only [ih, List.append_assoc, List.singleton_append]
      constructor
      · rintro ⟨_, rfl, rest, rfl, fits⟩
        exact ⟨rest, rfl, fits⟩
      · rintro ⟨rest, rfl, fits⟩
        exact ⟨letters ++ rest, rfl, rest, rfl, fits⟩

/-- Escaped letters alone fit where the letters stand. -/
theorem fits_escapeLetters (documented : search.Documented) (letters before behind : List Char) :
    search.fits (escapeLetters letters) before behind = true ↔ letters <+: behind := by
  have fits := documented.fits_escapeLetters_append .nothing letters before behind
  simp only [List.append_nil, documented.nothing, and_true] at fits
  rw [fits]
  constructor
  · rintro ⟨rest, whole⟩
    exact ⟨rest, whole.symm⟩
  · rintro ⟨rest, whole⟩
    exact ⟨rest, whole.symm⟩

variable {needle subject : String}

/-- An escaped text is found where it stands. -/
theorem finds_escape (documented : search.Documented) :
    search.finds (escape needle) subject = true ↔ needle.toList <:+: subject.toList := by
  rw [documented.anywhere]
  simp only [escape, String.toList_ofList, documented.fits_escapeLetters]
  constructor
  · rintro ⟨before, _, whole, rest, rfl⟩
    exact ⟨before, rest, by rw [whole, List.append_assoc]⟩
  · rintro ⟨before, rest, whole⟩
    exact ⟨before, needle.toList ++ rest, by rw [← whole, List.append_assoc], rest, rfl⟩

/-- An escaped text behind the anchor of a start is found where the text starts with it. -/
theorem finds_anchored_start (documented : search.Documented) :
    search.finds ("^" ++ escape needle) subject = true ↔ needle.toList <+: subject.toList := by
  have plain : PlainPattern (escapeLetters needle.toList) := by
    simpa using PlainPattern.nothing.escapeLetters_append needle.toList
  have letters : ("^" ++ escape needle).toList = '^' :: escapeLetters needle.toList := by
    simp [escape, String.toList_append]
  rw [documented.anywhere]
  simp only [letters, documented.start plain, documented.fits_escapeLetters]
  constructor
  · rintro ⟨_, behind, whole, rfl, starts⟩
    rwa [whole]
  · exact fun starts => ⟨[], subject.toList, rfl, rfl, starts⟩

/-- An escaped text before the anchor of an end is found where the text ends with it, or with it and
a newline. -/
theorem finds_anchored_end (documented : search.Documented) :
    search.finds (escape needle ++ "$") subject = true ↔
      needle.toList <:+ subject.toList ∨ (needle ++ "\n").toList <:+ subject.toList := by
  have letters : (escape needle ++ "$").toList = escapeLetters needle.toList ++ ['$'] := by
    simp [escape, String.toList_append]
  have newline : (needle ++ "\n").toList = needle.toList ++ ['\n'] := by
    simp [String.toList_append]
  rw [documented.anywhere]
  simp only [letters, newline, documented.fits_escapeLetters_append .finish, documented.finish]
  constructor
  · rintro ⟨before, _, whole, rest, rfl, rfl | rfl⟩
    · exact .inl ⟨before, by rw [whole, List.append_nil]⟩
    · exact .inr ⟨before, whole.symm⟩
  · rintro (⟨before, whole⟩ | ⟨before, whole⟩)
    · exact ⟨before, needle.toList, whole.symm, [], (List.append_nil _).symm, .inl rfl⟩
    · exact ⟨before, needle.toList ++ ['\n'], whole.symm, ['\n'], rfl, .inr rfl⟩

end PatternSearch.Documented

/-- A needle stands somewhere in a text exactly when it is a stretch of it. -/
theorem occursIn_eq_true_iff (needle text : List Char) :
    occursIn needle text = true ↔ needle <:+: text := by
  induction text with
  | nil => simp [occursIn]
  | cons letter rest ih =>
      simp only [occursIn, Bool.or_eq_true, List.isPrefixOf_iff_prefix, ih, List.infix_cons_iff]

/-- A comparison of a field with a text is sent as a search for a pattern. -/
def SentAsSearch (scope : Option String) (field : String) (operator : Operator)
    (needle pattern : String) : Prop :=
  queryIn scope (.comparison field operator (.string needle)) =
    .ok [(pathIn scope field, .document (condition "$regex" (.string pattern)))]

/-- Text operators are sent as searches for patterns, and a field that holds one text, of a document
or of an array element, is accepted exactly when the search finds the pattern in the text: for
containment and for a prefix always. The pattern of a suffix is found in what is accepted for the
needle, and in what is accepted for the needle and a newline behind it. -/
theorem text_patterns_found_iff {search : PatternSearch} (documented : search.Documented)
    (scope : Option String) {reached : String → List Value} {field subject : String}
    (holds : reached field = [.string subject]) (needle : String) :
    (∃ pattern, SentAsSearch scope field .contains needle pattern ∧
      (search.finds pattern subject = true ↔
        (Filter.comparison field .contains (.string needle)).accepts reached = true)) ∧
    (∃ pattern, SentAsSearch scope field .startsWith needle pattern ∧
      (search.finds pattern subject = true ↔
        (Filter.comparison field .startsWith (.string needle)).accepts reached = true)) ∧
    ∃ pattern, SentAsSearch scope field .endsWith needle pattern ∧
      (search.finds pattern subject = true ↔
        (Filter.comparison field .endsWith (.string needle)).accepts reached = true ∨
          (Filter.comparison field .endsWith (.string (needle ++ "\n"))).accepts reached =
            true) := by
  refine ⟨⟨escape needle, rfl, ?_⟩, ⟨"^" ++ escape needle, rfl, ?_⟩,
    ⟨escape needle ++ "$", rfl, ?_⟩⟩
  · rw [documented.finds_escape, ← occursIn_eq_true_iff]
    simp [Filter.accepts, Operator.accepts, containsHit, Value.meets, Value.textTest, holds]
  · rw [documented.finds_anchored_start, ← List.isPrefixOf_iff_prefix]
    simp [Filter.accepts, Operator.accepts, textHit, Value.meets, Value.textTest, holds]
  · rw [documented.finds_anchored_end, ← List.isSuffixOf_iff_suffix, ← List.isSuffixOf_iff_suffix]
    simp [Filter.accepts, Operator.accepts, textHit, Value.meets, Value.textTest, holds]

namespace PatternSearch

/-- Whether a pattern of the forms that are sent fits at a position, read sign by sign. A pattern of
another form fits nowhere. -/
def fitsBySign : List Char → List Char → List Char → Bool
  | [], _, _ => true
  | ['$'], _, behind => behind == [] || behind == ['\n']
  | '^' :: pattern, before, behind => before.isEmpty && fitsBySign pattern before behind
  | '\\' :: sign :: pattern, before, behind =>
      behind.head? == some sign && fitsBySign pattern (before ++ [sign]) behind.tail
  | sign :: pattern, before, behind =>
      !liveSigns.contains sign &&
        (behind.head? == some sign && fitsBySign pattern (before ++ [sign]) behind.tail)

/-- Whether a pattern fits at a position or at a later one. -/
def findsBySign (pattern : List Char) : List Char → List Char → Bool
  | before, [] => fitsBySign pattern before []
  | before, letter :: behind =>
      fitsBySign pattern before (letter :: behind) ||
        findsBySign pattern (before ++ [letter]) behind

/-- The search that reads patterns sign by sign and tries every position. -/
def bySign : PatternSearch where
  finds pattern subject := findsBySign pattern.toList [] subject.toList
  fits := fitsBySign

/-- Every position from the given one on is tried. -/
theorem findsBySign_eq_true_iff (pattern before behind : List Char) :
    findsBySign pattern before behind = true ↔
      ∃ skipped rest, behind = skipped ++ rest ∧
        fitsBySign pattern (before ++ skipped) rest = true := by
  induction behind generalizing before with
  | nil =>
      simp only [findsBySign, List.nil_eq, List.append_eq_nil_iff]
      constructor
      · exact fun fits => ⟨[], [], ⟨rfl, rfl⟩, by rwa [List.append_nil]⟩
      · rintro ⟨_, _, ⟨rfl, rfl⟩, fits⟩
        rwa [List.append_nil] at fits
  | cons letter behind ih =>
      simp only [findsBySign, Bool.or_eq_true, ih]
      constructor
      · rintro (fits | ⟨skipped, rest, rfl, fits⟩)
        · exact ⟨[], letter :: behind, rfl, by rwa [List.append_nil]⟩
        · exact ⟨letter :: skipped, rest, rfl, by rwa [List.append_assoc] at fits⟩
      · rintro ⟨skipped, rest, whole, fits⟩
        cases skipped with
        | nil =>
            obtain rfl : letter :: behind = rest := whole
            exact .inl (by rwa [List.append_nil] at fits)
        | cons first skipped =>
            obtain ⟨rfl, rfl⟩ := List.cons.inj whole
            exact .inr ⟨skipped, rest, rfl, by rwa [List.append_assoc]⟩

/-- A list with a given head goes on with its tail. -/
theorem head?_and_tail_iff {α : Type} {first : α} {list : List α} {holds : List α → Prop} :
    list.head? = some first ∧ holds list.tail ↔ ∃ rest, list = first :: rest ∧ holds rest := by
  cases list with
  | nil => simp
  | cons letter rest =>
      simp only [List.head?_cons, List.tail_cons, Option.some.injEq, List.cons.injEq]
      constructor
      · rintro ⟨same, behind⟩
        exact ⟨rest, ⟨same, rfl⟩, behind⟩
      · rintro ⟨_, ⟨same, rfl⟩, behind⟩
        exact ⟨same, behind⟩

/-- The search by signs does what the manual says. -/
theorem bySign_documented : bySign.Documented where
  anywhere pattern subject := findsBySign_eq_true_iff pattern.toList [] subject.toList
  nothing _ _ := rfl
  start _ before behind := by
    simp [bySign, fitsBySign]
  finish before behind := by
    simp [bySign, fitsBySign]
  ordinary {sign pattern} plain _ before behind := by
    have differs {live : Char} (listed : live ∈ liveSigns) : sign ≠ live :=
      fun same => plain (same ▸ listed)
    have notEscape : sign ≠ '\\' := differs (by decide)
    have notStart : sign ≠ '^' := differs (by decide)
    have notFinish : sign ≠ '$' := differs (by decide)
    rw [← head?_and_tail_iff]
    simp [bySign, fitsBySign, *]
  escaped _ _ before behind := by
    rw [← head?_and_tail_iff]
    simp [bySign, fitsBySign]

end PatternSearch

/-- Needles with signs of patterns in them are found in a text of two lines. -/
theorem text_patterns_found_in_lines :
    let document : Document := [("n", .string "(a.b)\nc")]
    let found (operator : Operator) (needle : String) : Prop :=
      ∃ pattern, SentAsSearch none "n" operator needle pattern ∧
        PatternSearch.bySign.finds pattern "(a.b)\nc" = true
    PatternSearch.bySign.Documented ∧ Document.reach document (route "n") =
        [.string "(a.b)\nc"] ∧
      found .contains "a.b" ∧ found .startsWith "(a" ∧ found .endsWith "\nc" := by
  intro document found
  have documented := PatternSearch.bySign_documented
  let reached : String → List Value := fun field => Document.reach document (route field)
  have holds : reached "n" = [.string "(a.b)\nc"] := by rfl
  refine ⟨documented, holds, ?_, ?_, ?_⟩
  · obtain ⟨pattern, sent, accepted⟩ := (text_patterns_found_iff documented none holds "a.b").1
    exact ⟨pattern, sent, accepted.mpr (by decide +kernel)⟩
  · obtain ⟨pattern, sent, accepted⟩ := (text_patterns_found_iff documented none holds "(a").2.1
    exact ⟨pattern, sent, accepted.mpr (by decide +kernel)⟩
  · obtain ⟨pattern, sent, accepted⟩ := (text_patterns_found_iff documented none holds "\nc").2.2
    exact ⟨pattern, sent, accepted.mpr (.inl (by decide +kernel))⟩

/-- The pattern of a suffix is found before the newline that ends a text, which does not end with
the suffix. -/
theorem suffix_pattern_found_before_newline :
    PatternSearch.bySign.Documented ∧ SentAsSearch none "n" .endsWith "foo" "foo$" ∧
      PatternSearch.bySign.finds "foo$" "foo\n" = true ∧
      Document.matches [("n", .string "foo\n")] (.comparison "n" .endsWith (.string "foo")) =
        false :=
  ⟨PatternSearch.bySign_documented, rfl, by decide +kernel, by decide +kernel⟩

end DocStore.Mongo
