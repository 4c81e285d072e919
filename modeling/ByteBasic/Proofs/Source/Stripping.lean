import ByteBasic.Proofs.Source.Grammar
import Mathlib.Data.List.TakeWhile

/-!
# Comments and blanks around a line

A line is read in two passes that do not know of each other: one cuts the comment and trims the
blanks, the other splits what is left into tokens. Each keeps track of string literals on its own, so
a comment behind a line is harmless only if the two agree on where a literal ends.

**The cut.** A text either holds a comment, which takes whatever is put behind the text, or it is kept
as a whole (`cutComment_whole_or`). What is left has no comment, so that cutting twice is cutting once
(`cutComment_cutComment`).

**The two scanners.** A literal that the tokenizer reads is a literal to the cut
(`cutComment_of_readQuoted`), and a text with tokens is kept and leaves the cut outside a literal
(`cutComment_of_tokenize`). Without tokens this fails: a quote that is never closed would hide the
marker behind it.

**Blanks** are no part of a marker, and none of them survives at an end (`stripComment_blanks`). A line
that is not kept as a whole has its comment already, and then the comment behind it adds nothing.
-/

namespace ByteBasic

/-! ## Blanks at the ends -/

namespace Text

/-- Text of blanks only. -/
def Blank (text : List Char) : Prop :=
  ∀ c ∈ text, isBlank c

instance : DecidablePred Blank :=
  fun text => List.decidableBAll (isBlank ·) text

theorem blank_nil : Blank [] :=
  List.forall_mem_nil _

theorem trim_blank_append {blanks : List Char} (h : Blank blanks) (text : List Char) :
    trim (blanks ++ text) = trim text := by
  rw [trim, trimStart, List.dropWhile_append_of_pos h, ← trimStart, ← trim]

theorem trimEnd_append_blank {blanks : List Char} (h : Blank blanks) (text : List Char) :
    trimEnd (text ++ blanks) = trimEnd text := by
  have hreverse : ∀ c ∈ blanks.reverse, isBlank c := fun c hc => h c (List.mem_reverse.1 hc)
  rw [trimEnd, List.reverse_append, List.dropWhile_append_of_pos hreverse, ← trimEnd]

theorem trim_append_blank {blanks : List Char} (h : Blank blanks) (text : List Char) :
    trim (text ++ blanks) = trim text := by
  have hblanks : blanks.dropWhile isBlank = [] := List.dropWhile_eq_nil_iff.2 h
  unfold trim trimStart
  rw [List.dropWhile_append]
  split
  next hempty => rw [hblanks, List.isEmpty_iff.1 hempty]
  next => exact trimEnd_append_blank h _

theorem exists_trim (text : List Char) :
    ∃ before after, Blank before ∧ Blank after ∧ before ++ (trim text ++ after) = text := by
  refine ⟨text.takeWhile isBlank, ((trimStart text).reverse.takeWhile isBlank).reverse,
    fun c hc => List.all_eq_true.1 List.all_takeWhile c hc, fun c hc => ?_, ?_⟩
  · exact List.all_eq_true.1 List.all_takeWhile c (List.mem_reverse.1 hc)
  · have hend : trim text ++ ((trimStart text).reverse.takeWhile isBlank).reverse =
        trimStart text := by
      rw [trim, trimEnd, ← List.reverse_append, List.takeWhile_append_dropWhile,
        List.reverse_reverse]
    rw [hend, trimStart, List.takeWhile_append_dropWhile]

end Text

namespace Source

open Text (Blank)

/-! ## Where a comment starts -/

/-- The texts that start a comment. -/
def commentMarkers : List (List Char) :=
  [['-', '-'], ['/', '/'], ['#', '#']]

theorem ne_of_isBlank {c d : Char} (h : Text.isBlank c) (hd : Text.isBlank d = false) : c ≠ d := by
  rintro rfl
  simp [h] at hd

/-- Blanks are kept, and what follows them is cut as if they were not there. -/
theorem cutComment_blank_append {blanks : List Char} (h : Blank blanks) (rest : List Char) :
    cutComment .plain (blanks ++ rest) = blanks ++ cutComment .plain rest :=
  cutComment_plain_append (fun c hc => ⟨ne_of_isBlank (h c hc) rfl, ne_of_isBlank (h c hc) rfl,
    ne_of_isBlank (h c hc) rfl, ne_of_isBlank (h c hc) rfl⟩) rest

theorem startsComment_iff {text : List Char} :
    startsComment text = true ↔ ∃ marker ∈ commentMarkers, marker <+: text := by
  constructor
  · intro h
    unfold startsComment at h
    split at h
    · exact ⟨['-', '-'], by decide, by simp⟩
    · exact ⟨['/', '/'], by decide, by simp⟩
    · exact ⟨['#', '#'], by decide, by simp⟩
    · cases h
  · rintro ⟨marker, hmarker, rest, rfl⟩
    simp only [commentMarkers, List.mem_cons, List.not_mem_nil, or_false] at hmarker
    rcases hmarker with rfl | rfl | rfl <;> rfl

/-- Only the first two characters matter. -/
theorem startsComment_cons_cons (c d : Char) (rest : List Char) :
    startsComment (c :: d :: rest) = startsComment [c, d] := by
  unfold startsComment
  split <;> split <;> simp_all

theorem startsComment_singleton (c : Char) : startsComment [c] = false := by
  unfold startsComment
  split <;> simp_all

theorem not_isBlank_of_mem {marker : List Char} (h : marker ∈ commentMarkers) {c : Char}
    (hc : c ∈ marker) : Text.isBlank c = false := by
  have hall : ∀ marker ∈ commentMarkers, marker.all (!Text.isBlank ·) := by decide
  simpa using List.all_eq_true.1 (hall marker h) c hc

/-- No blank belongs to a marker. -/
theorem startsComment_append_blank {blanks : List Char} (h : Blank blanks) (text : List Char) :
    startsComment (text ++ blanks) = startsComment text := by
  rw [Bool.eq_iff_iff, startsComment_iff, startsComment_iff]
  refine exists_congr fun marker => and_congr_right fun hmarker => ⟨fun hstart => ?_, fun hstart =>
    hstart.trans (List.prefix_append text blanks)⟩
  obtain htext | ⟨rest, rfl⟩ :=
    List.prefix_or_prefix_of_prefix hstart (List.prefix_append text blanks)
  · exact htext
  · cases rest with
    | nil => simp
    | cons c rest =>
      have hc : c ∈ blanks :=
        ((List.prefix_append_right_inj text).1 hstart).subset List.mem_cons_self
      have hmem : c ∈ text ++ c :: rest := by simp
      exact absurd rfl (ne_of_isBlank (h c hc) (not_isBlank_of_mem hmarker hmem))

theorem cutComment_isPrefix (place : Place) (text : List Char) : cutComment place text <+: text := by
  induction text generalizing place with
  | nil => exact List.prefix_rfl
  | cons c text ih =>
    rw [cutComment]
    split
    · exact List.nil_prefix
    · exact (List.prefix_cons_inj c).2 (ih _)

/-- What is left of a text has no comment. -/
theorem cutComment_cutComment (place : Place) (text : List Char) :
    cutComment place (cutComment place text) = cutComment place text := by
  induction text generalizing place with
  | nil => rfl
  | cons c text ih =>
    rw [cutComment]
    split
    next => rfl
    next hstart =>
      have hprefix := (List.prefix_cons_inj c).2 (cutComment_isPrefix (place.next c) text)
      rw [cutComment, if_neg, ih]
      rintro ⟨hplain, hmarker⟩
      obtain ⟨marker, hmem, hmarker⟩ := startsComment_iff.1 hmarker
      exact hstart ⟨hplain, startsComment_iff.2 ⟨marker, hmem, hmarker.trans hprefix⟩⟩

theorem cutComment_blank {blanks : List Char} (h : Blank blanks) (place : Place) :
    cutComment place blanks = blanks := by
  induction blanks generalizing place with
  | nil => rfl
  | cons c blanks ih =>
    have hstart : startsComment (c :: blanks) = false := startsComment_append_blank h []
    rw [cutComment, if_neg (by simp [hstart]), ih fun d hd => h d (List.mem_cons_of_mem c hd)]

/-- Blanks behind a text are kept or belong to its comment. -/
theorem cutComment_append_blank {blanks : List Char} (h : Blank blanks) (place : Place)
    (text : List Char) :
    ∃ rest, Blank rest ∧ cutComment place (text ++ blanks) = cutComment place text ++ rest := by
  induction text generalizing place with
  | nil => exact ⟨blanks, h, cutComment_blank h place⟩
  | cons c text ih =>
    have hstart := startsComment_append_blank h (c :: text)
    rw [List.cons_append] at hstart ⊢
    rw [cutComment, cutComment, hstart]
    split
    · exact ⟨[], Text.blank_nil, rfl⟩
    · obtain ⟨rest, hrest, heq⟩ := ih (place.next c)
      exact ⟨rest, hrest, by rw [heq, List.cons_append]⟩

/-- A text is kept as a whole, or it has a comment, which takes all that follows. -/
theorem cutComment_whole_or (place : Place) (text : List Char) :
    cutComment place text = text ∨
      ∀ rest, cutComment place (text ++ rest) = cutComment place text := by
  induction text generalizing place with
  | nil => exact .inl rfl
  | cons c text ih =>
    cases text with
    | nil =>
      left
      rw [cutComment, if_neg (by simp [startsComment_singleton])]
      rfl
    | cons d text =>
      have hstart : ∀ rest, startsComment (c :: d :: (text ++ rest)) =
          startsComment (c :: d :: text) := by
        intro rest
        rw [startsComment_cons_cons, startsComment_cons_cons c d text]
      rw [cutComment]
      split
      next hcomment =>
        right
        intro rest
        rw [List.cons_append, List.cons_append, cutComment, hstart, if_pos hcomment]
      next hcomment =>
        refine (ih (place.next c)).imp (fun hwhole => by rw [hwhole]) fun hcut rest => ?_
        rw [List.cons_append, cutComment, List.cons_append, hstart, if_neg hcomment,
          ← List.cons_append, hcut]

/-! ## Tokens and comments -/

theorem text_of_read? {text rest : List Char} {symbol : Symbol}
    (h : Symbol.read? text = some (symbol, rest)) : text = symbol.text.toList ++ rest := by
  unfold Symbol.read? at h
  split at h <;> cases h <;> rfl

/-- The search for a comment leaves a string literal where the literal ends. -/
theorem cutComment_of_readQuoted {text raw after : List Char}
    (h : readQuoted text = some (raw, after)) (rest : List Char) :
    ∃ literal, text = literal ++ after ∧
      cutComment .quoted (text ++ rest) = literal ++ cutComment .plain (after ++ rest) := by
  fun_induction readQuoted text generalizing raw after with
  | case1 => cases h
  | case2 after =>
    cases h
    exact ⟨['"'], rfl, by simp [cutComment, Place.next]⟩
  | case3 c text ih =>
    obtain ⟨⟨raw', after'⟩, hread, heq⟩ := Option.map_eq_some_iff.1 h
    cases heq
    obtain ⟨literal, rfl, hcut⟩ := ih hread
    refine ⟨'\\' :: c :: literal, rfl, ?_⟩
    rw [List.append_assoc] at hcut
    simp [cutComment, Place.next, hcut]
  | case4 c text hquote hescape ih =>
    obtain ⟨⟨raw', after'⟩, hread, heq⟩ := Option.map_eq_some_iff.1 h
    cases heq
    -- A backslash would have been read together with the character behind it.
    have hbackslash : c ≠ '\\' := by
      rintro rfl
      cases text with
      | nil => cases hread
      | cons d text => exact hescape d text rfl rfl
    have hnext : Place.next .quoted c = .quoted := by
      rw [Place.next, if_neg hbackslash, if_neg hquote]
    obtain ⟨literal, rfl, hcut⟩ := ih hread
    refine ⟨c :: literal, rfl, ?_⟩
    rw [List.cons_append, cutComment, if_neg (by simp), hnext, hcut, List.cons_append]

/-- No comment starts in a text of tokens, nor at its end. -/
theorem cutComment_of_tokenize {text : List Char} {tokens : List Token}
    (h : tokenize text = .ok tokens) (rest : List Char) :
    cutComment .plain (text ++ rest) = text ++ cutComment .plain rest := by
  fun_induction tokenize text generalizing tokens with
  | case1 => rfl
  | case2 c text hblank ih =>
    have hc : Blank [c] := by simpa [Blank] using hblank
    have hkept := cutComment_blank_append hc (text ++ rest)
    rw [List.cons_append, ← List.singleton_append, hkept, ih h]
    rfl
  | case3 c text hblank hword hlength ih =>
    obtain ⟨others, hothers, -⟩ := map_eq_ok h
    -- A word is kept, character by character, as none of them starts a comment.
    have hword' : ∀ d ∈ c :: text.takeWhile isWordChar, isWordChar d :=
      List.forall_mem_cons.2 ⟨hword, fun d hd => List.all_eq_true.1 List.all_takeWhile d hd⟩
    have hsplit : c :: text = (c :: text.takeWhile isWordChar) ++ text.dropWhile isWordChar := by
      rw [List.cons_append, List.takeWhile_append_dropWhile]
    rw [hsplit, List.append_assoc, cutComment_plain_append fun d hd => kept_of_isWordChar (hword' d hd),
      ih hothers, List.append_assoc]
  | case4 => cases h
  | case5 text raw after hread hlength hblank hword ih =>
    obtain ⟨others, hothers, -⟩ := map_eq_ok h
    -- In a string literal, marks of a comment do not count.
    obtain ⟨literal, rfl, hcut⟩ := cutComment_of_readQuoted hread rest
    rw [List.cons_append, cutComment, if_neg (by simp [startsComment])]
    show '"' :: cutComment .quoted _ = _
    rw [hcut, ih hothers, ← List.append_assoc]
    rfl
  | case6 => cases h
  | case7 c text hblank hword hquote symbol after hread hlength ih =>
    obtain ⟨others, hothers, -⟩ := map_eq_ok h
    rw [text_of_read? hread, List.append_assoc, (spells_symbol symbol).kept, ih hothers,
      List.append_assoc]

/-! ## Lines -/

/-- Blanks around a line are not part of what is left of it. -/
theorem stripComment_blanks {before after : List Char} (hbefore : Blank before)
    (hafter : Blank after) (line : List Char) :
    stripComment (before ++ (line ++ after)) = stripComment line := by
  obtain ⟨rest, hrest, heq⟩ := cutComment_append_blank hafter .plain line
  rw [stripComment, cutComment_blank_append hbefore, Text.trim_blank_append hbefore, heq,
    Text.trim_append_blank hrest, ← stripComment]

theorem stripComment_stripComment (line : List Char) :
    stripComment (stripComment line) = stripComment line := by
  obtain ⟨before, after, hbefore, hafter, heq⟩ := Text.exists_trim (cutComment .plain line)
  calc stripComment (stripComment line)
      = stripComment (before ++ (stripComment line ++ after)) :=
        (stripComment_blanks hbefore hafter _).symm
    _ = stripComment (cutComment .plain line) := congrArg stripComment heq
    _ = stripComment line := congrArg Text.trim (cutComment_cutComment .plain line)

theorem cutComment_marker {marker : List Char} (h : marker ∈ commentMarkers)
    (comment : List Char) : cutComment .plain (marker ++ comment) = [] := by
  have hstart : startsComment (marker ++ comment) = true :=
    startsComment_iff.2 ⟨marker, h, List.prefix_append _ _⟩
  cases hmarked : marker ++ comment with
  | nil => rfl
  | cons c rest =>
    rw [hmarked] at hstart
    rw [cutComment, if_pos ⟨rfl, hstart⟩]

/-- A comment behind a line that has tokens is not part of what is left of it. -/
theorem stripComment_comment {line : List Char} {tokens : List Token}
    (h : tokenize (stripComment line) = .ok tokens) {blanks marker : List Char}
    (hblanks : Blank blanks) (hmarker : marker ∈ commentMarkers) (comment : List Char) :
    stripComment (line ++ (blanks ++ (marker ++ comment))) = stripComment line := by
  obtain hwhole | hcut := cutComment_whole_or .plain line
  · have hstrip : stripComment line = Text.trim line := by rw [stripComment, hwhole]
    obtain ⟨before, after, hbefore, hafter, hline⟩ := Text.exists_trim line
    have hkept : ∀ rest, cutComment .plain (line ++ rest) = line ++ cutComment .plain rest := by
      intro rest
      rw [← hline, ← hstrip, List.append_assoc, List.append_assoc, cutComment_blank_append hbefore,
        cutComment_of_tokenize h, cutComment_blank_append hafter, List.append_assoc,
        List.append_assoc]
    rw [stripComment, hkept, cutComment_blank_append hblanks, cutComment_marker hmarker,
      List.append_nil, Text.trim_append_blank hblanks, hstrip]
  · rw [stripComment, hcut, ← stripComment]

end Source

open Source Text in
/-- Blanks around a line that is read, and a comment behind it, do not change what is read. Stripping
a line twice is stripping it once, and blanks around any line do not change what is read or why it is
refused. -/
theorem read_without_comments :
    (∀ (line : List Char) (result : Option Statement) (before after marker comment : List Char),
      Statement.parse line = .ok result → marker ∈ commentMarkers → Blank before → Blank after →
        Statement.parse (before ++ line ++ after ++ marker ++ comment) = .ok result) ∧
    (∀ line, stripComment (stripComment line) = stripComment line) ∧
    ∀ line before after : List Char, Blank before → Blank after →
      Statement.parse (before ++ line ++ after) = Statement.parse line := by
  refine ⟨?_, stripComment_stripComment, ?_⟩
  · intro line result before after marker comment h hmarker hbefore hafter
    obtain ⟨tokens, htokens, -⟩ := bind_eq_ok h
    have hcomment := stripComment_comment htokens hafter hmarker comment
    have hblanks := stripComment_blanks hbefore Text.blank_nil
      (line ++ (after ++ (marker ++ comment)))
    rw [List.append_nil, hcomment] at hblanks
    rw [← h, Statement.parse, Statement.parse]
    simp only [List.append_assoc, hblanks]
  · intro line before after hbefore hafter
    rw [Statement.parse, Statement.parse, List.append_assoc, stripComment_blanks hbefore hafter]

/-- A comment that holds a quote, behind a text that holds the marks of a comment and an escaped
quote. -/
theorem read_without_comments_quote :
    let line := "write(\x22--\\\x22//\x22)".toList
    let comment := " it\x27s \x22".toList
    Statement.parse (['\t', ' '] ++ line ++ [' '] ++ ['#', '#'] ++ comment) =
      .ok (some (.call "write" [.text [0x2D, 0x2D, 0x22, 0x2F, 0x2F]])) := by
  intro line comment
  have hline : Statement.parse line =
      .ok (some (.call "write" [.text [0x2D, 0x2D, 0x22, 0x2F, 0x2F]])) := by decide +kernel
  exact read_without_comments.1 line _ _ _ _ comment hline (by decide) (by decide) (by decide)

end ByteBasic
