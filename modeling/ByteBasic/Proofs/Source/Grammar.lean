import ByteBasic.Proofs.Source.Printing

/-!
# The grammar of lines

A line is read as a statement exactly when the statement is one that can be written.

**From a statement to its line.** The canonical line spells the tokens of the statement, and these
are read as the statement (`statement?_tokensOf`). Between the two stand only the search for comments
and the trimming of blanks, and neither takes anything away from a line that is spelled.

**From a line to its statement.** Every word among the tokens of a text is a word in the sense of
`IsWord` (`worded_of_tokenize`). A statement takes its names and labels from words, and a word is
taken for the start of a call or an assignment only where no keyword claims it
(`wellFormed_of_statement?`).

**Theorem (`read_iff_wellFormed`).** Every well-formed statement is read back from its canonical
line, whatever bytes its texts hold, and whatever is read from any line is well formed.
-/

namespace ByteBasic

namespace Source

/-! ## From tokens to the statement -/

theorem operand_tokenOf (value : Operand) : operand (tokenOf value) = .ok value := by
  cases value with
  | word name => rfl
  | text bytes =>
    simp only [tokenOf, operand, unescape_printBytes]
    rfl

theorem tokenOf_ne_symbol (value : Operand) (symbol : Symbol) : tokenOf value ≠ .symbol symbol := by
  cases value <;> simp [tokenOf]

theorem ofSymbol?_comparisonSymbolOf (comparison : Comparison) :
    comparisonSymbolOf comparison ≠ .equal ∧
      Comparison.ofSymbol? (comparisonSymbolOf comparison) = some comparison := by
  cases comparison <;> exact ⟨by decide, rfl⟩

theorem condition_conditionTokens (test : Condition) : condition (conditionTokens test) = .ok test := by
  obtain ⟨hne, hsymbol⟩ := ofSymbol?_comparisonSymbolOf test.comparison
  simp only [conditionTokens, condition, hne, if_false, hsymbol, operand_tokenOf]
  rfl

theorem splitAtColon_conditionTokens (test : Condition) (rest : List Token) :
    splitAtColon (conditionTokens test ++ rest) =
      (conditionTokens test ++ (splitAtColon rest).1, (splitAtColon rest).2) := by
  have hsymbol : comparisonSymbolOf test.comparison ≠ .colon := by
    cases test.comparison <;> decide
  simp [conditionTokens, splitAtColon, tokenOf_ne_symbol, hsymbol]

theorem update_updateTokens (update' : Update) :
    ∃ symbol rest, updateTokens update' = .symbol symbol :: rest ∧ symbol ≠ .openParen ∧
      update symbol rest = .ok update' := by
  cases update' with
  | set source =>
    refine ⟨.equal, [tokenOf source], rfl, by decide, ?_⟩
    simp only [update, if_true, setUpdate, operand_tokenOf]
    rfl
  | combine left op right =>
    refine ⟨.equal, [tokenOf left, .symbol (symbolOf op), tokenOf right], rfl, by decide, ?_⟩
    have hop : BinaryOp.ofSymbol? (symbolOf op) = some op := by cases op <;> rfl
    simp only [update, if_true, setUpdate, hop, operand_tokenOf]
    rfl
  | compound op source =>
    refine ⟨compoundSymbolOf op, [tokenOf source], rfl, by cases op <;> decide, ?_⟩
    have hne : compoundSymbolOf op ≠ .equal := by cases op <;> decide
    have hop : BinaryOp.ofCompound? (compoundSymbolOf op) = some op := by cases op <;> rfl
    simp only [update, hne, if_false, hop, compoundUpdate, operand_tokenOf]
    rfl

theorem argument_tokenOf (value : Operand) : argument (tokenOf value) = .ok value := by
  rw [argument, if_neg (tokenOf_ne_symbol value .comma), operand_tokenOf]

theorem someArguments_argumentTokens (value : Operand) (values : List Operand) :
    someArguments (argumentTokens (value :: values)) = .ok (value :: values) := by
  induction values generalizing value with
  | nil =>
    simp only [argumentTokens, List.map_cons, List.map_nil, List.intersperse_singleton, someArguments,
      argument_tokenOf]
    rfl
  | cons next values ih =>
    have hih := ih next
    simp only [argumentTokens, List.map_cons, List.intersperse_cons_cons, someArguments] at hih ⊢
    rw [argument_tokenOf, hih]
    rfl

theorem callArguments_argumentTokens (values : List Operand) :
    callArguments (argumentTokens values) = .ok values := by
  cases values with
  | nil => rfl
  | cons value values =>
    have hne : argumentTokens (value :: values) ≠ [] := by cases values <;> simp [argumentTokens]
    rw [callArguments, if_neg hne, someArguments_argumentTokens]

/-- Before other tokens, a word that is not reserved starts a call or an assignment. -/
theorem wordStatement_eq_plainStatement {word : String} (h : word ∉ reservedWords)
    {token : Token} {rest : List Token} :
    wordStatement word (token :: rest) = plainStatement word (token :: rest) := by
  simp only [reservedWords, List.mem_cons, not_or, List.not_mem_nil, not_false_eq_true,
    and_true] at h
  obtain ⟨hexit, hgoto, hvar, hif, hwhile, hfunction⟩ := h
  unfold wordStatement Keyword.ofWord?
  split_ifs <;> rfl

/-- The tokens of a statement are read as the statement. -/
theorem statement?_tokensOf {statement : Statement} (h : statement.WellFormed) :
    statement? (tokensOf statement) = .ok (some statement) := by
  cases statement with
  | declare name value =>
    cases value with
    | none => rfl
    | some value =>
      have : wordStatement "var" [.word name, .symbol .equal, tokenOf value] =
          (operand (tokenOf value)).map fun value => .declare name (some value) := rfl
      rw [tokensOf, statement?, this, operand_tokenOf]
      rfl
  | assign dest update' =>
    obtain ⟨symbol, rest, htokens, hparen, hupdate⟩ := update_updateTokens update'
    -- The destination is no reserved word, so the line is not taken for another statement.
    rw [tokensOf, statement?, htokens, wordStatement_eq_plainStatement h.1.2]
    simp only [plainStatement, hupdate]
    rfl
  | ifBlock test =>
    have hsplit := splitAtColon_conditionTokens test []
    have : wordStatement "if" (conditionTokens test) = ifStatement (conditionTokens test) := rfl
    rw [List.append_nil] at hsplit
    rw [tokensOf, statement?, this, ifStatement, hsplit]
    simp only [splitAtColon, List.append_nil, condition_conditionTokens]
    rfl
  | ifGoto test target =>
    have hsplit :=
      splitAtColon_conditionTokens test [.symbol .colon, .word "goto", .word target]
    rw [tokensOf, statement?]
    have : ∀ tokens, wordStatement "if" tokens = ifStatement tokens := fun _ => rfl
    rw [this, ifStatement, hsplit]
    -- No token of a condition is a colon, so the first one is that before `goto`.
    simp only [splitAtColon, List.append_nil, condition_conditionTokens, ifTarget, if_true]
    rfl
  | loop test =>
    have : wordStatement "while" (conditionTokens test) =
      (condition (conditionTokens test)).map .loop := rfl
    rw [tokensOf, statement?, this, condition_conditionTokens]
    rfl
  | exit code =>
    have : ∀ text, wordStatement "exit" [.word text] = (exitCode text).map .exit := fun _ => rfl
    rw [tokensOf, statement?, this, (exitCode_numeral code).2]
    rfl
  | call name arguments =>
    rw [tokensOf, statement?, wordStatement_eq_plainStatement h.1.2, plainStatement,
      if_pos List.getLast?_concat, List.dropLast_concat, callArguments_argumentTokens]
    rfl
  | otherwise => rfl
  | close => rfl
  | function name => rfl
  | ret => rfl
  | goto target => rfl
  | label name => rfl
  | halt => rfl

/-! ## From the line to its tokens -/

/-- A text whose two ends are not blank stays as it is. -/
theorem trim_of_spells {text : List Char} {tokens : List Token} (h : Spells text tokens) :
    Text.trim text = text := by
  obtain ⟨c, hc, hfirst⟩ := h.first
  obtain ⟨d, hd, hlast⟩ := h.last
  have hstart : Text.trimStart text = text := by
    cases text with
    | nil => rfl
    | cons _ _ =>
      cases hc
      simp [Text.trimStart, hfirst]
  have hend : text.reverse.dropWhile Text.isBlank = text.reverse := by
    cases hr : text.reverse with
    | nil => rfl
    | cons e _ =>
      rw [Option.mem_def, ← List.head?_reverse, hr] at hd
      cases hd
      simp [hlast]
  rw [Text.trim, hstart, Text.trimEnd, hend, List.reverse_reverse]

theorem tokenize_stripComment {text : List Char} {tokens : List Token} (h : Spells text tokens) :
    tokenize (stripComment text) = .ok tokens := by
  have hkept := h.kept []
  have hread := h.read [] (by intro c hc; cases hc)
  simp only [List.append_nil, cutComment] at hkept hread
  rw [stripComment, hkept, trim_of_spells h, hread, tokenize]
  simp [Except.map]

/-! ## From a line to a well-formed statement -/

theorem map_eq_ok {ε α β : Type} {f : α → β} {result : Except ε α} {b : β}
    (h : result.map f = .ok b) : ∃ a, result = .ok a ∧ f a = b := by
  cases result with
  | error _ => cases h
  | ok a => exact ⟨a, rfl, Except.ok.inj h⟩

theorem bind_eq_ok {ε α β : Type} {f : α → Except ε β} {result : Except ε α} {b : β}
    (h : result >>= f = .ok b) : ∃ a, result = .ok a ∧ f a = .ok b := by
  cases result with
  | error _ => cases h
  | ok a => exact ⟨a, rfl, h⟩

/-- A token that is a word is one. -/
def Worded : Token → Prop
  | .word text => IsWord text
  | .quoted _ => True
  | .symbol _ => True

theorem worded_of_tokenize {text : List Char} {tokens : List Token}
    (h : tokenize text = .ok tokens) : ∀ token ∈ tokens, Worded token := by
  fun_induction tokenize text generalizing tokens with
  | case1 => cases h; simp
  | case2 c rest hblank ih => exact ih h
  | case3 c rest hblank hword _ ih =>
    obtain ⟨others, hothers, rfl⟩ := map_eq_ok h
    refine List.forall_mem_cons.2 ⟨⟨by simp, ?_⟩, ih hothers⟩
    intro d hd
    rw [String.toList_ofList, List.mem_cons] at hd
    obtain rfl | hd := hd
    · exact isWordChar_iff.1 hword
    · exact isWordChar_iff.1 (List.all_eq_true.1 List.all_takeWhile d hd)
  | case4 => cases h
  | case5 rest raw after hread _ hblank hword ih =>
    obtain ⟨others, hothers, rfl⟩ := map_eq_ok h
    exact List.forall_mem_cons.2 ⟨trivial, ih hothers⟩
  | case6 => cases h
  | case7 c rest hblank hword hquote symbol after hread _ ih =>
    obtain ⟨others, hothers, rfl⟩ := map_eq_ok h
    exact List.forall_mem_cons.2 ⟨trivial, ih hothers⟩

theorem wellFormed_of_operand {token : Token} {value : Operand} (h : operand token = .ok value)
    (hword : Worded token) : value.WellFormed := by
  cases token with
  | word text => cases h; exact hword
  | quoted raw =>
    obtain ⟨bytes, -, rfl⟩ := map_eq_ok h
    trivial
  | symbol symbol => cases h

theorem wellFormed_of_condition {tokens : List Token} {test : Condition}
    (h : condition tokens = .ok test) (hwords : ∀ token ∈ tokens, Worded token) :
    test.WellFormed := by
  unfold condition at h
  split at h
  next left symbol right =>
    split_ifs at h
    split at h
    next => cases h
    next comparison _ =>
      obtain ⟨left', hleft, h⟩ := bind_eq_ok h
      obtain ⟨right', hright, h⟩ := bind_eq_ok h
      cases h
      exact ⟨wellFormed_of_operand hleft (hwords left (by simp)),
        wellFormed_of_operand hright (hwords right (by simp))⟩
  next => cases h

theorem isWord_of_ifTarget {tokens : List Token} {target : String}
    (h : ifTarget tokens = .ok target) (hwords : ∀ token ∈ tokens, Worded token) :
    IsWord target := by
  unfold ifTarget at h
  split at h
  next => cases h
  next => cases h; exact hwords (.word target) (by simp)
  next first _ =>
    split_ifs at h
    cases h
    exact hwords (.word target) (by simp)
  next => cases h

/-- The tokens on the two sides of the first colon are tokens of the line. -/
theorem mem_of_splitAtColon {tokens head : List Token} {tail : Option (List Token)}
    (h : splitAtColon tokens = (head, tail)) :
    (∀ token ∈ head, token ∈ tokens) ∧ ∀ rest ∈ tail, ∀ token ∈ rest, token ∈ tokens := by
  fun_induction splitAtColon tokens generalizing head tail with
  | case1 => cases h; simp
  | case2 rest => cases h; simp +contextual
  | case3 token rest hcolon before after hsplit ih =>
    cases h
    obtain ⟨hhead, htail⟩ := ih hsplit
    constructor
    · intro other hother
      obtain rfl | hother := List.mem_cons.1 hother
      · exact List.mem_cons_self
      · exact List.mem_cons_of_mem _ (hhead other hother)
    · intro rest' hrest other hother
      exact List.mem_cons_of_mem _ (htail rest' hrest other hother)

theorem wellFormed_of_ifStatement {tokens : List Token} {statement : Statement}
    (h : ifStatement tokens = .ok statement) (hwords : ∀ token ∈ tokens, Worded token) :
    statement.WellFormed := by
  unfold ifStatement at h
  split at h
  next head hsplit =>
    obtain ⟨test, htest, rfl⟩ := map_eq_ok h
    obtain ⟨hhead, -⟩ := mem_of_splitAtColon hsplit
    have htest' : test.WellFormed :=
      wellFormed_of_condition htest fun token ht => hwords token (hhead token ht)
    exact htest'
  next head tail hsplit =>
    obtain ⟨target, htarget, h⟩ := bind_eq_ok h
    obtain ⟨test, htest, h⟩ := bind_eq_ok h
    cases h
    obtain ⟨hhead, htail⟩ := mem_of_splitAtColon hsplit
    exact ⟨wellFormed_of_condition htest fun token ht => hwords token (hhead token ht),
      isWord_of_ifTarget htarget fun token ht => hwords token (htail tail rfl token ht)⟩

theorem wellFormed_of_argument {token : Token} {value : Operand} (h : argument token = .ok value)
    (hword : Worded token) : value.WellFormed := by
  unfold argument at h
  split_ifs at h
  exact wellFormed_of_operand h hword

theorem wellFormed_of_someArguments {tokens : List Token} {values : List Operand}
    (h : someArguments tokens = .ok values) (hwords : ∀ token ∈ tokens, Worded token) :
    ∀ value ∈ values, value.WellFormed := by
  fun_induction someArguments tokens generalizing values with
  | case1 => cases h
  | case2 token =>
    obtain ⟨value, hvalue, rfl⟩ := map_eq_ok h
    simpa using wellFormed_of_argument hvalue (hwords token (by simp))
  | case3 token rest ih =>
    obtain ⟨first, hfirst, h⟩ := bind_eq_ok h
    obtain ⟨others, hothers, h⟩ := bind_eq_ok h
    cases h
    refine List.forall_mem_cons.2 ⟨wellFormed_of_argument hfirst (hwords token (by simp)), ?_⟩
    exact ih hothers fun other hother => hwords other (by simp [hother])
  | case4 => cases h

theorem wellFormed_of_callArguments {tokens : List Token} {values : List Operand}
    (h : callArguments tokens = .ok values) (hwords : ∀ token ∈ tokens, Worded token) :
    ∀ value ∈ values, value.WellFormed := by
  unfold callArguments at h
  split_ifs at h
  · cases h; simp
  · exact wellFormed_of_someArguments h hwords

theorem wellFormed_of_update {symbol : Symbol} {tokens : List Token} {update' : Update}
    (h : update symbol tokens = .ok update') (hwords : ∀ token ∈ tokens, Worded token) :
    update'.WellFormed := by
  unfold update at h
  split_ifs at h
  · unfold setUpdate at h
    split at h
    next source =>
      obtain ⟨value, hvalue, rfl⟩ := map_eq_ok h
      have hvalue' : value.WellFormed := wellFormed_of_operand hvalue (hwords source (by simp))
      exact hvalue'
    next left symbol right =>
      split at h
      next => cases h
      next op _ =>
        obtain ⟨left', hleft, h⟩ := bind_eq_ok h
        obtain ⟨right', hright, h⟩ := bind_eq_ok h
        cases h
        exact ⟨wellFormed_of_operand hleft (hwords left (by simp)),
          wellFormed_of_operand hright (hwords right (by simp))⟩
    next => cases h
  · split at h
    next op _ =>
      unfold compoundUpdate at h
      split at h
      next source =>
        obtain ⟨value, hvalue, rfl⟩ := map_eq_ok h
        have hvalue' : value.WellFormed := wellFormed_of_operand hvalue (hwords source (by simp))
        exact hvalue'
      next => split at h <;> cases h
      next => cases h
    next => cases h

theorem wellFormed_of_plainStatement {word : String} {tokens : List Token} {statement : Statement}
    (h : plainStatement word tokens = .ok statement) (hword : IsWord word)
    (hfree : word ∉ reservedWords) (hwords : ∀ token ∈ tokens, Worded token) :
    statement.WellFormed := by
  unfold plainStatement at h
  split at h
  next rest =>
    split_ifs at h
    obtain ⟨values, hvalues, rfl⟩ := map_eq_ok h
    refine ⟨⟨hword, hfree⟩, wellFormed_of_callArguments hvalues ?_⟩
    intro token ht
    exact hwords token (List.mem_cons_of_mem _ (List.dropLast_subset _ ht))
  next symbol rest _ =>
    obtain ⟨update', hupdate, rfl⟩ := map_eq_ok h
    refine ⟨⟨hword, hfree⟩, wellFormed_of_update hupdate ?_⟩
    intro token ht
    exact hwords token (List.mem_cons_of_mem _ ht)
  next => cases h

theorem not_mem_reservedWords {word : String}
    (h : Keyword.ofWord? word ∈ [none, some .halt, some .otherwise, some .close, some .ret]) :
    word ∉ reservedWords := by
  intro hmem
  simp only [reservedWords, List.mem_cons, List.not_mem_nil, or_false] at hmem
  obtain rfl | rfl | rfl | rfl | rfl | rfl := hmem <;> simp [Keyword.ofWord?] at h

theorem wellFormed_of_wordStatement {word : String} {tokens : List Token} {statement : Statement}
    (h : wordStatement word tokens = .ok statement) (hword : IsWord word)
    (hwords : ∀ token ∈ tokens, Worded token) : statement.WellFormed := by
  unfold wordStatement at h
  split at h
  next => cases h; trivial
  next => cases h; trivial
  next => cases h; trivial
  next => cases h; trivial
  next =>
    obtain ⟨code, -, rfl⟩ := map_eq_ok h
    trivial
  next => cases h
  next target _ => cases h; exact hwords (.word target) (by simp)
  next => cases h
  next name _ => cases h; exact ⟨hwords (.word name) (by simp), by simp⟩
  next name value _ =>
    obtain ⟨value', hvalue, rfl⟩ := map_eq_ok h
    exact ⟨hwords (.word name) (by simp),
      by simpa using wellFormed_of_operand hvalue (hwords value (by simp))⟩
  next => cases h
  next => exact wellFormed_of_ifStatement h hwords
  next =>
    obtain ⟨test, htest, rfl⟩ := map_eq_ok h
    have htest' : test.WellFormed := wellFormed_of_condition htest hwords
    exact htest'
  next name _ => cases h; exact hwords (.word name) (by simp)
  next => cases h
  next =>
    -- Each word that is always a keyword has been taken by a case above.
    refine wellFormed_of_plainStatement h hword (not_mem_reservedWords ?_) hwords
    cases hkeyword : Keyword.ofWord? word with
    | none => simp
    | some keyword => cases keyword <;> simp_all

/-- The statement of tokens whose words are words is well formed. -/
theorem wellFormed_of_statement? {tokens : List Token} {statement : Statement}
    (h : statement? tokens = .ok (some statement)) (hwords : ∀ token ∈ tokens, Worded token) :
    statement.WellFormed := by
  unfold statement? at h
  split at h
  next => cases h
  next word rest =>
    obtain ⟨statement', hstatement, hsome⟩ := map_eq_ok h
    cases hsome
    exact wellFormed_of_wordStatement hstatement (hwords (.word word) (by simp))
      fun token ht => hwords token (List.mem_cons_of_mem _ ht)
  next name => cases h; exact hwords (.word name) (by simp)
  next => cases h
  next => cases h

end Source

open Source in
/-- Every well-formed statement is read back from its canonical line, and whatever is read from any
line is well formed. -/
theorem read_iff_wellFormed :
    (∀ statement : Statement, statement.WellFormed →
      Statement.parse statement.print.toList = .ok (some statement)) ∧
    ∀ (line : List Char) (statement : Statement),
      Statement.parse line = .ok (some statement) → statement.WellFormed := by
  constructor
  · intro statement h
    rw [Statement.parse, tokenize_stripComment (spells_print h)]
    exact statement?_tokensOf h
  · intro line statement h
    obtain ⟨tokens, htokens, h⟩ := bind_eq_ok h
    exact wellFormed_of_statement? h (worded_of_tokenize htokens)

/-- A call whose text holds a backslash, a quote, the marks of a comment, the null character and a
byte above the ASCII range. -/
theorem read_iff_wellFormed_text :
    let statement : Statement :=
      .call "write" [.text [0x5C, 0x22, 0x27, 0x0A, 0x2D, 0x2D, 0x00, 0xFF], .word "x_1"]
    statement.WellFormed ∧
      statement.print.toList.take 17 = "write(\x22\\\\\\\x22\\\x27\\n--".toList ∧
      Statement.parse statement.print.toList = .ok (some statement) :=
  ⟨by decide, by decide, read_iff_wellFormed.1 _ (by decide)⟩

end ByteBasic
