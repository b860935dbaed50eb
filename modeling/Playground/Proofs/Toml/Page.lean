import Playground.Toml.Page
import Playground.Proofs.Toml.Number

/-!
# Pages are read back

A page of plain blocks is read as the document that its blocks make, one after the other (`parse?_writePage`). Headers and pairs are
read back one by one. `Yields` relates a piece of text to the lines that are read off it, so that pieces can be put together with
`Yields.append`: a page of its blocks with blank lines between them, a block of its header and its pairs.
-/

namespace Playground.Toml

/-! ## Names -/

/-- Names with dots between them. -/
def dotted (path : List String) : List Char := ['.'].intercalate (path.map String.toList)

section Names

variable {name : String} {path : List String} {c d : Char} {rest after : List Char}

/-- A bare name begins with one of its characters. -/
theorem IsBareName.exists_cons (h : IsBareName name) :
    ∃ c cs, name.toList = c :: cs ∧ isBare c = true := by
  obtain ⟨c, cs, hname⟩ := List.exists_cons_of_ne_nil h.1
  have hall := h.2
  rw [hname, List.all_cons, Bool.and_eq_true] at hall
  exact ⟨c, cs, hname, hall.1⟩

/-- The first of some names stands in front of a dot and the others. -/
theorem dotted_cons (hname : path ≠ []) : dotted (name :: path) = name.toList ++ '.' :: dotted path := by
  rw [dotted, List.map_cons, List.intercalate_cons_of_ne_nil (by simpa using hname), List.append_assoc]
  rfl

/-- Names with dots begin as the first of them. -/
theorem exists_dotted_eq_cons (hpath : path ≠ []) (hbare : ∀ name ∈ path, IsBareName name) :
    ∃ c cs, dotted path = c :: cs ∧ isBare c = true := by
  obtain ⟨name, names, rfl⟩ := List.exists_cons_of_ne_nil hpath
  obtain ⟨c, cs, hname, hc⟩ := (hbare name List.mem_cons_self).exists_cons
  by_cases hnames : names = []
  · subst hnames
    exact ⟨c, cs, (List.intercalate_singleton).trans hname, hc⟩
  · refine ⟨c, cs ++ '.' :: dotted names, ?_, hc⟩
    rw [dotted_cons hnames, hname, List.cons_append]

/-- A character of a name is no blank. -/
theorem skipSpaces_of_isBare (hc : isBare c = true) (s : List Char) : skipSpaces (c :: s) = c :: s := by
  have hspace : isSpace c = false := by
    cases hspace : isSpace c with
    | false => rfl
    | true =>
      simp only [isSpace, Bool.or_eq_true, beq_iff_eq] at hspace
      obtain rfl | rfl := hspace <;> cases hc
  rw [skipSpaces, List.dropWhile_cons, hspace]
  rfl

/-- A name ends where a character stands that belongs to none. -/
theorem keyPart_bare (h : IsBareName name) (hc : isBare c = false) (rest : List Char) :
    keyPart (name.toList ++ c :: rest) = some (name, c :: rest) := by
  obtain ⟨htaken, hleft⟩ := run_append (List.all_eq_true.mp h.2) hc rest
  unfold keyPart
  rw [htaken]
  split
  next hnil => exact absurd hnil h.1
  next => rw [hleft, String.ofList_toList]

/-- Names with dots between them are read back, with the blanks behind them. -/
theorem keyParts_dotted (hpath : path ≠ []) (hbare : ∀ name ∈ path, IsBareName name) {most : Nat} (hmost : path.length ≤ most)
    (hc : isBare c = false) (hskip : skipSpaces (c :: rest) = d :: after) (hd : d ≠ '.') :
    keyParts most (dotted path ++ c :: rest) = some (path, d :: after) := by
  induction path generalizing most with
  | nil => exact absurd rfl hpath
  | cons name path ih =>
    obtain ⟨most, rfl⟩ : ∃ fewer, most = fewer + 1 := ⟨most - 1, by rw [List.length_cons] at hmost; omega⟩
    obtain ⟨x, xs, hfirst, hx⟩ := exists_dotted_eq_cons hpath hbare
    have hblank : skipSpaces (dotted (name :: path) ++ c :: rest) = dotted (name :: path) ++ c :: rest := by
      rw [hfirst]
      exact skipSpaces_of_isBare hx _
    have hname := hbare name List.mem_cons_self
    by_cases hlast : path = []
    · subst hlast
      have hone : dotted [name] = name.toList := List.intercalate_singleton
      rw [keyParts, hblank, hone, keyPart_bare hname hc]
      dsimp only
      rw [hskip]
      split
      next heq => exact absurd (List.cons.inj heq).1 hd
      next => rfl
    · have hrest := ih hlast (fun other hother => hbare other (List.mem_cons_of_mem name hother))
        (Nat.le_of_succ_le_succ hmost)
      have hdot : skipSpaces ('.' :: (dotted path ++ c :: rest)) = '.' :: (dotted path ++ c :: rest) := rfl
      rw [keyParts, hblank, dotted_cons hlast, List.append_assoc, List.cons_append, keyPart_bare hname rfl]
      simp only [hdot, hrest, Option.map_some]

/-- A key is read back. -/
theorem key_dotted (hpath : path ≠ []) (hbare : ∀ name ∈ path, IsBareName name) (hdepth : path.length ≤ maxDepth)
    (hc : isBare c = false) (hskip : skipSpaces (c :: rest) = d :: after) (hd : d ≠ '.') :
    key (dotted path ++ c :: rest) = some ((path.dropLast, path.getLastD ""), d :: after) := by
  have hlast : path.getLast? = some (path.getLastD "") := by
    rw [List.getLastD_eq_getLast?, List.getLast?_eq_some_getLast hpath]
    rfl
  rw [key, keyParts_dotted hpath hbare hdepth hc hskip hd]
  dsimp only
  rw [hlast]
  rfl

end Names

/-! ## Values -/

/-- The end of a line is no quote. -/
theorem head?_newline_ne {c : Char} (h : Quoted.IsQuote c) (rest : List Char) : ('\n' :: rest).head? ≠ some c := by
  rcases h with rfl | rfl <;> exact fun heq => nomatch heq

/-- Written text begins with a quote. -/
theorem exists_write_eq_cons (s : List Char) : ∃ c rest, Quoted.IsQuote c ∧ Quoted.write s = c :: rest := by
  unfold Quoted.write
  cases Quoted.formOf s with
  | basic => exact ⟨'"', _, .inl rfl, rfl⟩
  | literal => exact ⟨'\'', _, .inr rfl, rfl⟩
  | basicLines => exact ⟨'"', _, .inl rfl, rfl⟩
  | literalLines => exact ⟨'\'', _, .inr rfl, rfl⟩

/-- What begins with a digit is a number, a date or a time. -/
theorem valueWith_digit (nested : Option (Reader Value)) {c : Char} (hc : isDigit c = true) (s : List Char) :
    valueWith nested (c :: s) = numeral (c :: s) := by
  unfold valueWith
  split
  case h_8 => rfl
  -- Each other kind of value begins with a character of its own, and none of these is a digit.
  all_goals
    rename_i heq
    cases heq
    try cases hc

namespace Value

variable {v : Value} {written : List Char}

/-- A number is written in its digits, if it is not negative and fits. -/
theorem write?_integer {n : Int} (h : (integer n).write? = some written) :
    ∃ k : Nat, n = k ∧ k < 9223372036854775808 ∧ written = Nat.toDigits 10 k := by
  simp only [write?, Option.ite_none_right_eq_some, Option.some.injEq] at h
  obtain ⟨⟨hnonneg, hfits⟩, rfl⟩ := h
  exact ⟨n.toNat, (Int.toNat_of_nonneg hnonneg).symm, by omega, rfl⟩

/-- A written value begins with no blank. -/
theorem skipSpaces_write (h : v.write? = some written) (rest : List Char) : skipSpaces (written ++ rest) = written ++ rest := by
  cases v with
  | string t =>
    obtain ⟨c, cs, hc, hwrite⟩ := exists_write_eq_cons t.toList
    obtain rfl := Option.some.inj h
    rw [hwrite]
    rcases hc with rfl | rfl <;> rfl
  | integer n =>
    obtain ⟨k, -, -, rfl⟩ := write?_integer h
    obtain ⟨c, cs, hdigits⟩ := List.exists_cons_of_ne_nil (toDigits_ne_nil k)
    have hc : isDigit c = true := isDigit_of_mem_toDigits (hdigits ▸ List.mem_cons_self)
    have hbare : isBare c = true := by simp [isBare, hc]
    rw [hdigits]
    exact skipSpaces_of_isBare hbare _
  | boolean b => cases b <;> (obtain rfl := Option.some.inj h; rfl)
  | float | moment | array _ | table _ => cases h

/-- A written value is read back, up to the end of its line. -/
theorem value_write (h : v.write? = some written) (nested : Option (Reader Value)) (rest : List Char) :
    valueWith nested (written ++ '\n' :: rest) = some (v, '\n' :: rest) := by
  cases v with
  | string t =>
    have hread := Quoted.read_write t.toList fun c hc => head?_newline_ne hc rest
    obtain ⟨c, cs, hc, hwrite⟩ := exists_write_eq_cons t.toList
    obtain rfl := Option.some.inj h
    rw [hwrite] at hread ⊢
    have hvalue : valueWith nested (c :: cs ++ '\n' :: rest) =
        (Quoted.read (c :: cs ++ '\n' :: rest)).map fun taken => (.string (String.ofList taken.1), taken.2) := by
      rcases hc with rfl | rfl <;> rfl
    rw [hvalue, hread]
    simp only [Option.map_some, String.ofList_toList]
  | integer n =>
    obtain ⟨k, rfl, hfits, rfl⟩ := write?_integer h
    have hread := numeral_toDigits hfits rest
    obtain ⟨c, cs, hdigits⟩ := List.exists_cons_of_ne_nil (toDigits_ne_nil k)
    have hc : isDigit c = true := isDigit_of_mem_toDigits (hdigits ▸ List.mem_cons_self)
    rw [hdigits] at hread ⊢
    rw [List.cons_append, valueWith_digit nested hc]
    exact hread
  | boolean b => cases b <;> (obtain rfl := Option.some.inj h; rfl)
  | float | moment | array _ | table _ => cases h

end Value

/-! ## Lines -/

/-- A value under a name without dots. -/
def Pair.single (p : String × Value) : Pair := ⟨[], p.1, p.2⟩

/-- Text at the front of a document is read as these lines, in no more rounds than it has characters, whatever has been read before it
and whatever follows. -/
def Yields (text : List Char) (said : List Line) : Prop :=
  ∃ used, used ≤ text.length ∧ ∀ rounds taken rest, used ≤ rounds.length →
    lines rounds taken (text ++ rest) = lines (rounds.drop used) (said.reverse ++ taken) rest

namespace Yields

theorem nil : Yields [] [] := ⟨0, Nat.le_refl 0, fun _ _ _ _ => rfl⟩

/-- One line takes one round. -/
theorem of_line {c : Char} {text : List Char} {said : Option Line}
    (hblank : ∀ rest, skipSpaces (c :: text ++ rest) = c :: text ++ rest)
    (hline : ∀ rest, anyLine (c :: text ++ rest) = some (said, rest)) : Yields (c :: text) said.toList := by
  refine ⟨1, Nat.succ_le_succ (Nat.zero_le _), ?_⟩
  intro rounds taken rest hrounds
  obtain ⟨round, rounds, rfl⟩ := List.exists_cons_of_length_pos hrounds
  have hblank := hblank rest
  have hline := hline rest
  rw [List.cons_append] at hblank hline ⊢
  have hreverse : said.toList.reverse = said.toList := by cases said <;> rfl
  simp only [lines, hblank, hline, hreverse, List.drop_succ_cons, List.drop_zero]

theorem append {text₁ text₂ : List Char} {said₁ said₂ : List Line} (h₁ : Yields text₁ said₁) (h₂ : Yields text₂ said₂) :
    Yields (text₁ ++ text₂) (said₁ ++ said₂) := by
  obtain ⟨used₁, hlength₁, hread₁⟩ := h₁
  obtain ⟨used₂, hlength₂, hread₂⟩ := h₂
  refine ⟨used₁ + used₂, by rw [List.length_append]; omega, ?_⟩
  intro rounds taken rest hrounds
  rw [List.append_assoc, hread₁ rounds taken _ (by omega), hread₂ _ _ rest (by rw [List.length_drop]; omega)]
  rw [List.drop_drop, List.reverse_append, List.append_assoc]

/-- A document is read to its lines. -/
theorem lines_eq {text : List Char} {said : List Line} (h : Yields text said) : lines (rounds text) [] text = some said := by
  obtain ⟨used, hlength, hread⟩ := h
  have hread := hread (rounds text) [] [] (Nat.le_succ_of_le hlength)
  rw [List.append_nil, List.append_nil] at hread
  obtain ⟨round, left, hleft⟩ : ∃ round left, (rounds text).drop used = round :: left := by
    refine List.exists_cons_of_length_pos ?_
    rw [List.length_drop, rounds, List.length_cons]
    omega
  rw [hread, hleft]
  simp only [lines, skipSpaces, List.dropWhile_nil, List.reverse_reverse]

/-- Lines begin with no mark. -/
theorem skipMark_eq {text : List Char} {said : List Line} (h : Yields text said) : skipMark text = text := by
  unfold skipMark
  split
  next => cases h.lines_eq
  next => rfl

/-- A blank line says nothing. -/
theorem blank : Yields ['\n'] [] := @of_line '\n' [] none (fun _ => rfl) (fun _ => rfl)

end Yields

/-- What begins as a name does is a pair. -/
theorem anyLine_bare {c : Char} (hc : isBare c = true) {s after : List Char} {p : Pair}
    (hpair : pair (value maxDepth) (c :: s) = some (p, '\n' :: after)) :
    anyLine (c :: s) = some (some (.pair p), after) := by
  have hend : lineEnd? ('\n' :: after) = some after := rfl
  have hline : line (c :: s) = some (.pair p, after) := by
    unfold line
    split
    next heq => cases heq; cases hc
    next heq => cases heq; cases hc
    next => simp only [hpair, Option.bind_eq_bind, Option.bind_some, hend]; rfl
  unfold anyLine
  split
  next heq => cases heq; cases hc
  next heq => cases heq; cases hc
  next heq => cases heq; cases hc
  next => rw [hline]; rfl

/-- A pair on its line is read back. -/
theorem yields_pair {p : String × Value} (hname : IsBareName p.1) {text : List Char} (h : writePair? p = some text) :
    Yields text [.pair (Pair.single p)] := by
  obtain ⟨written, hwritten, rfl⟩ := Option.map_eq_some_iff.mp h
  have hpair : ∀ rest, pair (value maxDepth) (p.1.toList ++ [' ', '=', ' '] ++ written ++ ['\n'] ++ rest) =
      some (Pair.single p, '\n' :: rest) := by
    intro rest
    have htext : p.1.toList ++ [' ', '=', ' '] ++ written ++ ['\n'] ++ rest =
        dotted [p.1] ++ ' ' :: '=' :: ' ' :: (written ++ '\n' :: rest) := by
      simp [dotted]
    have hkey := @key_dotted [p.1] ' ' '=' ('=' :: ' ' :: (written ++ '\n' :: rest)) (' ' :: (written ++ '\n' :: rest))
      nofun (by simpa using hname) (Nat.le_of_ble_eq_true rfl) rfl rfl (by decide)
    have hequals : expect '=' ('=' :: ' ' :: (written ++ '\n' :: rest)) = some (' ' :: (written ++ '\n' :: rest)) := rfl
    have hspace : skipSpaces (' ' :: (written ++ '\n' :: rest)) = written ++ '\n' :: rest :=
      Value.skipSpaces_write hwritten _
    have hvalue : value maxDepth (written ++ '\n' :: rest) = some (p.2, '\n' :: rest) :=
      Value.value_write hwritten _ rest
    rw [htext, pair]
    simp only [hkey, Option.bind_eq_bind, Option.bind_some, hequals, hspace, hvalue]
    rfl
  obtain ⟨c, cs, hfirst, hc⟩ := hname.exists_cons
  rw [hfirst] at hpair ⊢
  exact Yields.of_line (fun rest => skipSpaces_of_isBare hc _) fun rest => anyLine_bare hc (hpair rest)

/-- A header on its line is read back. -/
theorem yields_header {path : List String} (hpath : path ≠ []) (hbare : ∀ name ∈ path, IsBareName name)
    (hdepth : path.length ≤ maxDepth) : Yields (writeHeader path) [.header path.dropLast (path.getLastD "") false] := by
  refine @Yields.of_line '[' _ (some _) (fun _ => rfl) ?_
  intro rest
  have htext : '[' :: (dotted path ++ [']', '\n']) ++ rest = '[' :: (dotted path ++ ']' :: '\n' :: rest) := by simp
  have hkey := @key_dotted path ']' ']' ('\n' :: rest) ('\n' :: rest) hpath hbare hdepth rfl rfl (by decide)
  have hheader : header false (dotted path ++ ']' :: '\n' :: rest) =
      some (.header path.dropLast (path.getLastD "") false, rest) := by
    rw [header]
    simp only [hkey, Option.bind_eq_bind, Option.bind_some]
    rfl
  obtain ⟨c, cs, hfirst, hc⟩ := exists_dotted_eq_cons hpath hbare
  have hline : line ('[' :: (dotted path ++ ']' :: '\n' :: rest)) = header false (dotted path ++ ']' :: '\n' :: rest) := by
    rw [hfirst, List.cons_append]
    unfold line
    split
    next heq => cases heq; cases hc
    next heq => cases heq; rfl
    next hother => exact absurd rfl (hother _)
  show (line ('[' :: (dotted path ++ [']', '\n']) ++ rest)).map _ = _
  rw [htext, hline, hheader]
  rfl

/-! ## Blocks -/

namespace Block

/-- The names of the pairs. -/
def names (b : Block) : List String := b.pairs.map Prod.fst

/-- A block whose lines can be read back: no name needs quotes, and the header has one, but no more than may be read. -/
structure Plain (b : Block) : Prop where
  headed : b.path ≠ []
  shallow : b.path.length ≤ maxDepth
  bare : ∀ name ∈ b.path ++ b.names, IsBareName name

/-- The header and the pairs below it. -/
def said (b : Block) : List Line :=
  .header b.path.dropLast (b.path.getLastD "") false :: b.pairs.map fun p => .pair (Pair.single p)

/-- A document with the table of the block. -/
def add (draft : Draft) (b : Block) : Option Draft :=
  Draft.openTable draft b.path.dropLast (b.path.getLastD "") (b.pairs.map Pair.single)

end Block

/-- With nothing between them, parts just stand one after the other. -/
theorem nil_intercalate {α : Type} (texts : List (List α)) : [].intercalate texts = texts.flatten := by
  induction texts with
  | nil => rfl
  | cons text texts ih =>
    cases texts with
    | nil => simp
    | cons other texts => rw [List.intercalate_cons_cons, ih, List.append_nil, List.flatten_cons (l := text)]

/-- The parts of a text say what they say one after the other, if nothing is said between them. -/
theorem yields_intercalate {α : Type} {write : α → Option (List Char)} {said : α → List Line} {between : List Char}
    (hbetween : Yields between []) {parts : List α}
    (hyields : ∀ part ∈ parts, ∀ text, write part = some text → Yields text (said part)) {texts : List (List Char)}
    (h : parts.mapM write = some texts) : Yields (between.intercalate texts) (parts.flatMap said) := by
  induction parts generalizing texts with
  | nil =>
    obtain rfl := Option.some.inj h
    exact .nil
  | cons part parts ih =>
    simp only [List.mapM_cons, Option.bind_eq_bind, Option.bind_eq_some_iff, Option.pure_def, Option.some.injEq] at h
    obtain ⟨text, htext, others, hothers, rfl⟩ := h
    have hfirst := hyields part List.mem_cons_self text htext
    have hrest := ih (fun other hother => hyields other (List.mem_cons_of_mem part hother)) hothers
    cases others with
    | nil =>
      have hparts : parts = [] := by
        cases parts with
        | nil => rfl
        | cons _ _ => simp [List.mapM_cons, Option.bind_eq_some_iff] at hothers
      subst hparts
      rw [List.intercalate_singleton, List.flatMap_singleton]
      exact hfirst
    | cons other others =>
      have hsaid := (hfirst.append hbetween).append hrest
      rw [List.append_nil] at hsaid
      rw [List.intercalate_cons_cons, List.flatMap_cons]
      exact hsaid

/-- A written block is read back. -/
theorem Block.Plain.yields {b : Block} (hplain : b.Plain) {text : List Char} (h : b.write? = some text) : Yields text b.said := by
  obtain ⟨texts, htexts, rfl⟩ := Option.map_eq_some_iff.mp h
  have hheader := yields_header hplain.headed (fun name hname => hplain.bare name (List.mem_append_left _ hname))
    hplain.shallow
  have hpairs : Yields ([].intercalate texts) (b.pairs.flatMap fun p => [.pair (Pair.single p)]) :=
    yields_intercalate .nil (fun p hp _ hwrite =>
      yields_pair (hplain.bare p.1 (List.mem_append_right _ (List.mem_map_of_mem hp))) hwrite) htexts
  have hsaid := hheader.append hpairs
  rw [← List.map_eq_flatMap, nil_intercalate] at hsaid
  exact hsaid

/-! ## Pages -/

/-- Pairs before a list of lines come to the pairs that stand in it before its first header. -/
theorem sections_pairs (ps : List Pair) (ls : List Line) :
    sections (ps.map Line.pair ++ ls) = (ps ++ (sections ls).1, (sections ls).2) := by
  induction ps with
  | nil => rfl
  | cons p ps ih =>
    rw [sections] at ih ⊢
    rw [List.map_cons, List.cons_append, List.foldr_cons, ih]
    rfl

/-- Each block is a section. -/
theorem sections_blocks (blocks : List Block) :
    sections (blocks.flatMap Block.said) =
      ([], blocks.map fun b => ⟨b.path.dropLast, b.path.getLastD "", false, b.pairs.map Pair.single⟩) := by
  induction blocks with
  | nil => rfl
  | cons b blocks ih =>
    have hpairs := sections_pairs (b.pairs.map Pair.single) (blocks.flatMap Block.said)
    rw [ih, List.append_nil, List.map_map] at hpairs
    have hheader : ∀ path key ls, sections (.header path key false :: ls) =
        ([], ⟨path, key, false, (sections ls).1⟩ :: (sections ls).2) := fun _ _ _ => rfl
    have hsaid : (b.pairs.map fun p => Line.pair (Pair.single p)) = b.pairs.map (Line.pair ∘ Pair.single) := rfl
    rw [List.flatMap_cons, Block.said, List.cons_append, hheader, hsaid, hpairs]
    rfl

/-- A page is read as the document that its blocks make. -/
theorem parse?_writePage {blocks : List Block} (hplain : ∀ b ∈ blocks, b.Plain) {text : String}
    (h : writePage? blocks = some text) : parse? text = (blocks.foldlM Block.add []).map Draft.close := by
  obtain ⟨texts, htexts, rfl⟩ := Option.map_eq_some_iff.mp h
  have hyields : Yields (['\n'].intercalate texts) (blocks.flatMap Block.said) :=
    yields_intercalate .blank (fun b hb _ hwrite => (hplain b hb).yields hwrite) htexts
  have hpage : parse? (String.ofList (['\n'].intercalate texts)) = (assemble (blocks.flatMap Block.said)).map Draft.close := by
    rw [parse?, String.toList_ofList]
    simp only [hyields.skipMark_eq, hyields.lines_eq, Option.bind_some]
  have hassemble : assemble (blocks.flatMap Block.said) = blocks.foldlM Block.add [] := by
    rw [assemble, sections_blocks]
    show (blocks.map _).foldlM Draft.add [] = _
    rw [List.foldlM_map]
    rfl
  rw [hpage, hassemble]

/-! ## Writing -/

/-- A list is written if each of its parts is. -/
theorem isSome_mapM {α β : Type} {write : α → Option β} {parts : List α} :
    (parts.mapM write).isSome ↔ ∀ part ∈ parts, (write part).isSome := by
  induction parts with
  | nil => exact ⟨fun _ _ h => (nomatch h), fun _ => rfl⟩
  | cons part parts ih =>
    rw [List.forall_mem_cons, ← ih, List.mapM_cons]
    cases write part with
    | none => simp
    | some text => cases parts.mapM write <;> simp

/-- A page is written if each of its values is. -/
theorem isSome_writePage {blocks : List Block} :
    (writePage? blocks).isSome ↔ ∀ b ∈ blocks, ∀ p ∈ b.pairs, p.2.write?.isSome := by
  simp only [writePage?, Block.write?, writePair?, Option.isSome_map, isSome_mapM]

/-- Every text has a written form. -/
theorem Value.isSome_write_string (t : String) : (string t).write?.isSome := rfl

/-- So have both truth values. -/
theorem Value.isSome_write_boolean (b : Bool) : (boolean b).write?.isSome := by
  cases b <;> rfl

/-- A number from zero up has a written form if it fits. -/
theorem Value.isSome_write_integer {n : Nat} : (integer n).write?.isSome ↔ n < 9223372036854775808 := by
  simp only [write?, Option.isSome_ite]
  omega

end Playground.Toml
