import ValueBus.Document.Entries
import ValueBus.Proofs.Loading

/-!
# Plain documents

A document of settings has one entry on each line, a key and a number. Whatever else the reader of
documents accepts, it reads such a document as the entries that were written, and so the limits that
are written down are the limits that are loaded.
-/

namespace ValueBus.Document

/-- The characters of plain words. None of them has a meaning of its own in a document. -/
def isWordSymbol (symbol : Char) : Bool :=
  symbol.isAlphanum || symbol = '_'

structure Word where
  symbols : List Char
  nonempty : symbols ≠ []
  plain : ∀ symbol ∈ symbols, isWordSymbol symbol = true

def Word.text (word : Word) : String :=
  String.ofList word.symbols

/-- An entry on a line of its own. A longer key would be out of reach of its colon. -/
structure PlainEntry where
  key : Word
  value : Word
  reaches : key.symbols.length ≤ 1024

namespace PlainEntry

def line (entry : PlainEntry) : List Char :=
  entry.key.symbols ++ ':' :: ' ' :: entry.value.symbols ++ ['\n']

def text (entries : List PlainEntry) : String :=
  String.ofList (entries.flatMap line)

end PlainEntry

/-! ## Symbols -/

section Symbols

variable {symbol : Char} (word : isWordSymbol symbol = true)
include word

theorem symbol_ne {special : Char} (reserved : isWordSymbol special = false) :
    (symbol = special) = False := by
  apply eq_false
  rintro rfl
  rw [word] at reserved
  cases reserved

theorem isAllowed_of_word : isAllowed symbol = true := by
  have classes : ((symbol.isUpper = true ∨ symbol.isLower = true) ∨ symbol.isDigit = true) ∨
      symbol = '_' := by
    rw [isWordSymbol, Bool.or_eq_true, decide_eq_true_eq] at word
    apply word.imp_left
    intro alphanumeric
    exact (Bool.or_eq_true _ _ ▸ alphanumeric).imp_left (Bool.or_eq_true _ _).mp
  have printable (least greatest : Char) (low : ' ' ≤ least) (high : greatest ≤ '~')
      (within : least ≤ symbol ∧ symbol ≤ greatest) : ' ' ≤ symbol ∧ symbol ≤ '~' :=
    ⟨Char.le_trans low within.1, Char.le_trans within.2 high⟩
  have range : ' ' ≤ symbol ∧ symbol ≤ '~' := by
    rcases classes with ((upper | lower) | digit) | rfl
    · exact printable 'A' 'Z' (by decide) (by decide) (of_decide_eq_true upper)
    · have bounds := (Bool.and_eq_true _ _).mp lower
      exact printable 'a' 'z' (by decide) (by decide)
        (bounds.imp of_decide_eq_true of_decide_eq_true)
    · have bounds := (Bool.and_eq_true _ _).mp digit
      exact printable '0' '9' (by decide) (by decide)
        (bounds.imp of_decide_eq_true of_decide_eq_true)
    · decide
  simp [isAllowed, range]

theorem isBlank_of_word : isBlank symbol = false := by
  simp (disch := first | exact word | decide) [isBlank, symbol_ne]

theorem isLineEnd_of_word : isLineEnd symbol = false := by
  simp (disch := first | exact word | decide) [isLineEnd, symbol_ne]

end Symbols

/-! ## Cells -/

/-- The cells of characters that stand on one line. -/
def row (line column : Nat) : List Char → List Cell
  | [] => []
  | symbol :: rest => ⟨symbol, line, column⟩ :: row line (column + 1) rest

/-- A colon and a blank, and what follows them. -/
def colon (line column : Nat) (rest : List Cell) : List Cell :=
  ⟨':', line, column⟩ :: ⟨' ', line, column + 1⟩ :: rest

theorem colon_append (line column : Nat) (rest after : List Cell) :
    colon line column rest ++ after = colon line column (rest ++ after) :=
  rfl

namespace PlainEntry

def cells (line : Nat) (entry : PlainEntry) : List Cell :=
  let column := entry.key.symbols.length
  let stop := column + 2 + entry.value.symbols.length
  row line 0 entry.key.symbols ++
    colon line column (row line (column + 2) entry.value.symbols ++ [⟨'\n', line, stop⟩])

def cellsAll (line : Nat) : List PlainEntry → List Cell
  | [] => []
  | entry :: rest => entry.cells line ++ cellsAll (line + 1) rest

end PlainEntry

theorem cellsFrom_word (line column : Nat) (word : List Char)
    (plain : ∀ symbol ∈ word, isWordSymbol symbol = true) (rest : List Char) :
    cellsFrom line column (word ++ rest) =
      row line column word ++ cellsFrom line (column + word.length) rest := by
  induction word generalizing column with
  | nil => rfl
  | cons symbol word ih =>
      rcases List.forall_mem_cons.1 plain with ⟨symbolPlain, wordPlain⟩
      have stays : cellsFrom line column (symbol :: (word ++ rest)) =
          ⟨symbol, line, column⟩ :: cellsFrom line (column + 1) (word ++ rest) := by
        rw [cellsFrom]
        · simp (disch := first | exact symbolPlain | decide) [symbol_ne, isLineEnd_of_word]
        · simp (disch := first | exact symbolPlain | decide) [symbol_ne]
      rw [List.cons_append, stays, ih _ wordPlain, List.length_cons, row, List.cons_append,
        Nat.add_right_comm, ← Nat.add_assoc]

theorem cellsFrom_line (line : Nat) (entry : PlainEntry) (rest : List Char) :
    cellsFrom line 0 (entry.line ++ rest) = entry.cells line ++ cellsFrom (line + 1) 0 rest := by
  have marks (column : Nat) (after : List Char) : cellsFrom line column (':' :: ' ' :: after) =
      colon line column (cellsFrom line (column + 2) after) := by
    simp [cellsFrom, colon, isLineEnd]
  have lineEnd (column : Nat) : cellsFrom line column ('\n' :: rest) =
      ⟨'\n', line, column⟩ :: cellsFrom (line + 1) 0 rest := by
    simp [cellsFrom, isLineEnd]
  simp only [PlainEntry.line, List.append_assoc, List.cons_append, List.nil_append, marks, lineEnd,
    cellsFrom_word _ _ _ entry.key.plain, cellsFrom_word _ _ _ entry.value.plain, Nat.zero_add,
    PlainEntry.cells, colon_append]

theorem cellsFrom_lines (line : Nat) (entries : List PlainEntry) :
    cellsFrom line 0 (entries.flatMap PlainEntry.line) = PlainEntry.cellsAll line entries := by
  induction entries generalizing line with
  | nil => rfl
  | cons entry rest ih => rw [List.flatMap_cons, cellsFrom_line, ih, PlainEntry.cellsAll]

theorem PlainEntry.symbol_of_mem {entries : List PlainEntry} {symbol : Char}
    (symbolMem : symbol ∈ entries.flatMap PlainEntry.line) :
    isWordSymbol symbol = true ∨ symbol = ':' ∨ symbol = ' ' ∨ symbol = '\n' := by
  rcases List.mem_flatMap.1 symbolMem with ⟨entry, _, symbolMem⟩
  simp only [PlainEntry.line, List.mem_append, List.mem_cons, List.not_mem_nil, or_false]
    at symbolMem
  rcases symbolMem with (keyMem | colon | blank | valueMem) | lineEnd
  · exact Or.inl (entry.key.plain symbol keyMem)
  · exact Or.inr (Or.inl colon)
  · exact Or.inr (Or.inr (Or.inl blank))
  · exact Or.inl (entry.value.plain symbol valueMem)
  · exact Or.inr (Or.inr (Or.inr lineEnd))

theorem cells?_text (entries : List PlainEntry) :
    cells? (PlainEntry.text entries) = some (PlainEntry.cellsAll 0 entries) := by
  have allowed : (entries.flatMap PlainEntry.line).all isAllowed = true := by
    rw [List.all_eq_true]
    intro symbol symbolMem
    rcases PlainEntry.symbol_of_mem symbolMem with word | rfl | rfl | rfl
    · exact isAllowed_of_word word
    · decide
    · decide
    · decide
  rw [cells?, PlainEntry.text, String.toList_ofList, if_pos allowed, ← cellsFrom_lines]
  split
  next rest marked =>
    have markMem : '\ufeff' ∈ entries.flatMap PlainEntry.line := marked ▸ List.mem_cons_self
    have unmarked := PlainEntry.symbol_of_mem markMem
    exact absurd unmarked (by decide)
  next => rfl

/-! ## Words among the cells -/

theorem startsRule_of_ne {mark : Char} {cell : Cell} (other : cell.symbol ≠ mark)
    (rest : List Cell) : startsRule mark (cell :: rest) = false := by
  unfold startsRule
  split
  next first second third rest same =>
    cases same
    simp [other]
  next => rfl

theorem startsRule_of_word {mark : Char} {cell : Cell} (word : isWordSymbol cell.symbol = true)
    (reserved : isWordSymbol mark = false) (rest : List Cell) :
    startsRule mark (cell :: rest) = false :=
  startsRule_of_ne (symbol_ne word reserved).mp rest

theorem startsMark_of_word {cell : Cell} (word : isWordSymbol cell.symbol = true)
    (rest : List Cell) : startsMark (cell :: rest) = false := by
  rw [startsMark, startsRule_of_word word (by decide), startsRule_of_word word (by decide),
    Bool.or_false]

theorem plainFrom_word (indent line column : Nat) (text word : List Char)
    (plain : ∀ symbol ∈ word, isWordSymbol symbol = true) (rest : List Cell) :
    plainFrom false indent text (.blanks []) (row line column word ++ rest) =
      plainFrom false indent (word.reverse ++ text) (.blanks []) rest := by
  induction word generalizing column text with
  | nil => rfl
  | cons symbol word ih =>
      rcases List.forall_mem_cons.1 plain with ⟨symbolPlain, wordPlain⟩
      have goesOn : endsPlain false indent (.blanks []) ⟨symbol, line, column⟩
          (row line (column + 1) word ++ rest) = false := by
        simp (disch := first | exact symbolPlain | decide) [endsPlain, startsMark_of_word,
          symbol_ne, Gap.isBroken, Gap.isNone]
      rw [row, List.cons_append, plainFrom]
      simp only [isBlank_of_word symbolPlain, isLineEnd_of_word symbolPlain, goesOn, Gap.text,
        Bool.false_eq_true, Bool.false_and, if_false, List.nil_append]
      rw [ih _ _ wordPlain, List.reverse_cons, List.append_assoc, List.singleton_append]

theorem Word.exists_row_eq (word : Word) (line column : Nat) :
    ∃ first others, isWordSymbol first = true ∧
      row line column word.symbols = ⟨first, line, column⟩ :: others := by
  rcases List.exists_cons_of_ne_nil word.nonempty with ⟨first, others, symbolsEq⟩
  rw [symbolsEq]
  exact ⟨first, _, word.plain first (symbolsEq ▸ List.mem_cons_self), rfl⟩

/-- A key ends at its colon. -/
theorem plainFrom_key (indent line column : Nat) (key : Word) (rest : List Cell) :
    plainFrom false indent [] (.blanks []) (row line 0 key.symbols ++ colon line column rest) =
      some (key.text, false, colon line column rest) := by
  rw [plainFrom_word _ _ _ _ _ key.plain]
  simp [colon, plainFrom, isBlank, isLineEnd, endsPlain, endsWord, Gap.isBroken, Word.text]

/-- A value ends with its line: the next key is indented no more than the mapping. -/
theorem plainFrom_value (line column stop next : Nat) (value : Word) (later : List PlainEntry) :
    plainFrom false 1 [] (.blanks [])
        (row line column value.symbols ++ ⟨'\n', line, stop⟩ :: PlainEntry.cellsAll next later) =
      some (value.text, true, PlainEntry.cellsAll next later) := by
  rw [plainFrom_word _ _ _ _ _ value.plain, List.append_nil]
  cases later with
  | nil =>
      simp [PlainEntry.cellsAll, plainFrom, isBlank, isLineEnd, Gap.lineEnd, Gap.isBroken,
        Word.text]
  | cons entry later =>
      rcases entry.key.exists_row_eq next 0 with ⟨first, others, plain, rowEq⟩
      simp (disch := first | exact plain | decide) [PlainEntry.cellsAll, PlainEntry.cells, rowEq,
        plainFrom, isBlank, isLineEnd, endsPlain, Gap.lineEnd, Gap.isBroken, symbol_ne, Word.text]

/-! ## Tokens -/

/-- The tokens of an entry, in order. -/
def PlainEntry.tokens (entry : PlainEntry) : List Token :=
  [.key, .scalar .plain entry.key.text, .value, .scalar .plain entry.value.text]

namespace Lexer

theorem step_of_word (lexer : Lexer) {cell : Cell} (word : isWordSymbol cell.symbol = true)
    (rest : List Cell) : lexer.step cell rest = lexer.plainScalar cell rest := by
  simp (disch := first | exact word | decide) [step, startsPlain, isBlank_of_word, symbol_ne,
    startsRule_of_word, reserved, flowMarks]

theorem step_colon (lexer : Lexer) (line column : Nat) (rest : List Cell) :
    lexer.step ⟨':', line, column⟩ (⟨' ', line, column + 1⟩ :: rest) =
      lexer.value ⟨':', line, column⟩ (⟨' ', line, column + 1⟩ :: rest) := by
  simp [step, startsRule_of_ne, endsWord, isBlank]

theorem skipFrom_of_word (allowed : Bool) {cell : Cell} (word : isWordSymbol cell.symbol = true)
    (rest : List Cell) : skipFrom false allowed false (cell :: rest) = (allowed, cell :: rest) := by
  simp (disch := first | exact word | decide) [skipFrom, isLineEnd_of_word, symbol_ne]

variable (steps line : Nat) (tokens : List Token) (indents : List Nat)

/-- A step outside of flow collections. -/
theorem run_succ {keyPlace : Option KeyPlace} {allowed keyAllowed : Bool} {cells rest : List Cell}
    {cell : Cell} (skipped : skipFrom false allowed false cells = (keyAllowed, cell :: rest)) :
    run (steps + 1) { cells, tokens, indents, keyPlace, keyAllowed := allowed } =
      (expireKeys { cells := cell :: rest, tokens, indents, keyPlace, keyAllowed } cell).bind
        fun kept => ((kept.close (cell.column < ·)).step cell rest).bind (run steps) := by
  have skips : skip { cells, tokens, indents, keyPlace, keyAllowed := allowed } =
      { cells := cell :: rest, tokens, indents, keyPlace, keyAllowed } := by
    simp only [skip, inFlow, List.isEmpty_nil, Bool.not_true, skipped]
  simp only [run, skips]
  rfl

/-- A key may have started where the scalar of an entry did. -/
theorem run_key (flush : indents = [] ∨ indents = [0]) (key : Word) (column : Nat)
    (rest : List Cell) :
    run (steps + 1)
        { cells := row line 0 key.symbols ++ colon line column rest, tokens, indents } =
      run steps
        { cells := colon line column rest
          tokens := .scalar .plain key.text :: tokens
          indents
          keyPlace := some ⟨tokens.length, line, 0, indents.head? = some 0⟩
          keyAllowed := false } := by
  rcases key.exists_row_eq line 0 with ⟨first, others, plain, rowEq⟩
  have read (indent : Nat) := plainFrom_key indent line column key rest
  simp only [rowEq, List.cons_append] at read ⊢
  rw [run_succ _ _ _ (@skipFrom_of_word true ⟨first, line, 0⟩ plain _)]
  rcases flush with rfl | rfl <;>
    simp [expireKeys, KeyPlace.giveUp?, step_of_word, plain, close, inFlow, plainScalar, noteKey,
      dropKey, indent?, read, emit]

/-- The token that is put before the first entry. -/
def opening : List Nat → List Token
  | [] => [.mapping]
  | _ :: _ => []

/-- The colon puts the tokens of the entry before its key. -/
theorem run_colon (flush : indents = [] ∨ indents = [0]) (scalar : Token) {column : Nat}
    (reaches : column ≤ 1024) (isRequired : Bool) (rest : List Cell) :
    run (steps + 1)
        { cells := colon line column rest
          tokens := scalar :: tokens
          indents
          keyPlace := some ⟨tokens.length, line, 0, isRequired⟩
          keyAllowed := false } =
      run steps
        { cells := ⟨' ', line, column + 1⟩ :: rest
          tokens := .value :: scalar :: .key :: (opening indents ++ tokens)
          indents := [0]
          keyAllowed := false } := by
  have skipped : skipFrom false false false (colon line column rest) =
      (false, colon line column rest) := by
    simp [colon, skipFrom, isLineEnd]
  have behindKey : tokens.length + 1 + 1 - tokens.length = 2 := by omega
  rw [run_succ _ _ _ skipped]
  rcases flush with rfl | rfl <;>
    simp [expireKeys, KeyPlace.isOutOfReach, Nat.not_lt.2 reaches, close, inFlow, step_colon, value,
      insert, openBlock, indent?, emit, opening, behindKey]

theorem run_value (value : Word) (column stop next : Nat) (later : List PlainEntry) :
    run (steps + 1)
        { cells := ⟨' ', line, column⟩ :: (row line (column + 1) value.symbols ++
            ⟨'\n', line, stop⟩ :: PlainEntry.cellsAll next later)
          tokens
          indents := [0]
          keyAllowed := false } =
      run steps
        { cells := PlainEntry.cellsAll next later
          tokens := .scalar .plain value.text :: tokens
          indents := [0] } := by
  rcases value.exists_row_eq line (column + 1) with ⟨first, others, plain, rowEq⟩
  have read := plainFrom_value line (column + 1) stop next value later
  rw [rowEq, List.cons_append] at read ⊢
  have skipped (after : List Cell) : skipFrom false false false
      (⟨' ', line, column⟩ :: ⟨first, line, column + 1⟩ :: after) =
        (false, ⟨first, line, column + 1⟩ :: after) := by
    rw [← @skipFrom_of_word false ⟨first, line, column + 1⟩ plain after]
    simp [skipFrom, isLineEnd]
  rw [run_succ _ _ _ (skipped _)]
  simp [expireKeys, step_of_word, plain, close, inFlow, plainScalar, noteKey, indent?, read, emit]

theorem run_entry (flush : indents = [] ∨ indents = [0]) (entry : PlainEntry)
    (later : List PlainEntry) :
    run (steps + 3) { cells := PlainEntry.cellsAll line (entry :: later), tokens, indents } =
      run steps
        { cells := PlainEntry.cellsAll (line + 1) later
          tokens := entry.tokens.reverse ++ (opening indents ++ tokens)
          indents := [0] } := by
  simp only [PlainEntry.cellsAll, PlainEntry.cells, colon_append, List.append_assoc,
    List.cons_append, List.nil_append]
  rw [run_key _ _ _ _ flush, run_colon _ _ _ _ flush _ entry.reaches, run_value]
  rfl

theorem run_lines (entries : List PlainEntry) :
    run (steps + 3 * entries.length + 1)
        { cells := PlainEntry.cellsAll line entries, tokens, indents := [0] } =
      some (tokens.reverse ++ entries.flatMap PlainEntry.tokens ++ [.dedent]) := by
  induction entries generalizing line tokens with
  | nil => simp [PlainEntry.cellsAll, run, skip, skipFrom, close, inFlow, dropKey, KeyPlace.giveUp?]
  | cons entry rest ih =>
      have count : steps + 3 * (entry :: rest).length + 1 = steps + 3 * rest.length + 1 + 3 := by
        rw [List.length_cons]
        omega
      rw [count, run_entry _ _ _ _ (Or.inr rfl), ih]
      simp [opening]

end Lexer

theorem PlainEntry.length_cellsAll (line : Nat) (entries : List PlainEntry) :
    3 * entries.length ≤ (cellsAll line entries).length := by
  induction entries generalizing line with
  | nil => exact Nat.zero_le _
  | cons entry rest ih =>
      have restLength := ih (line + 1)
      simp only [cellsAll, cells, colon, List.length_append, List.length_cons]
      omega

theorem tokens?_cells (entries : List PlainEntry) :
    tokens? (PlainEntry.cellsAll 0 entries) = some (if entries = [] then [] else
      .mapping :: (entries.flatMap PlainEntry.tokens ++ [.dedent])) := by
  cases entries with
  | nil => rfl
  | cons entry rest =>
      have enough := PlainEntry.length_cellsAll 0 (entry :: rest)
      rcases Nat.exists_eq_add_of_le enough with ⟨spare, lengthEq⟩
      have steps : (PlainEntry.cellsAll 0 (entry :: rest)).length + 1 =
          spare + 3 * rest.length + 1 + 3 := by
        rw [lengthEq, List.length_cons]
        omega
      rw [tokens?, steps, Lexer.run_entry _ _ _ _ (Or.inl rfl), Lexer.run_lines]
      simp [Lexer.opening]

/-! ## Nodes -/

/-- The scalar that a word is. -/
def Word.scalar (word : Word) : Scalar :=
  ⟨.plain, none, word.text⟩

def PlainEntry.nodes (entry : PlainEntry) : Node × Node :=
  (.scalar entry.key.scalar, .scalar entry.value.scalar)

namespace Reader

variable (fuel : Nat) (progress : Progress)

theorem blockEntries_entry (entry : PlainEntry) (rest : List Token) :
    blockEntries (fuel + 3) { progress with tokens := entry.tokens ++ rest } =
      (blockEntries (fuel + 2) { progress with tokens := rest }).map fun (entries, after) =>
        (entry.nodes :: entries, after) := by
  have steps : blockEntries (fuel + 3) { progress with tokens := entry.tokens ++ rest } =
      (blockEntries (fuel + 2) { progress with tokens := rest }).bind fun (entries, after) =>
        some (entry.nodes :: entries, after) := rfl
  rw [steps, Option.map_eq_bind]
  rfl

theorem blockEntries_tokens (entries : List PlainEntry) (rest : List Token) :
    blockEntries (fuel + entries.length + 2)
        { progress with tokens := entries.flatMap PlainEntry.tokens ++ .dedent :: rest } =
      some (entries.map PlainEntry.nodes, { progress with tokens := rest }) := by
  induction entries with
  | nil => rfl
  | cons entry entries ih =>
      rw [List.flatMap_cons, List.append_assoc, List.length_cons, ← Nat.add_assoc,
        Nat.add_right_comm _ 1 2, blockEntries_entry, ih]
      rfl

theorem root_mapping (stems : List (String × Tag)) (rest : List Token) :
    root { tokens := .mapping :: rest, stems } =
      (blockEntries (3 * rest.length + 5) { tokens := rest, stems }).map fun (entries, after) =>
        (.mapping entries, after) := by
  have steps : root { tokens := .mapping :: rest, stems } =
      (blockEntries (3 * rest.length + 5) { tokens := rest, stems }).bind fun (entries, after) =>
        some (.mapping entries, after) := rfl
  rw [steps, Option.map_eq_bind]
  rfl

end Reader

theorem PlainEntry.length_tokens (entries : List PlainEntry) :
    (entries.flatMap tokens).length = 4 * entries.length := by
  induction entries with
  | nil => rfl
  | cons entry rest ih =>
      rw [List.flatMap_cons, List.length_append, ih, List.length_cons, Nat.mul_succ, Nat.add_comm]
      rfl

theorem ofTokens?_tokens (entries : List PlainEntry) :
    ofTokens? [] (.mapping :: (entries.flatMap PlainEntry.tokens ++ [.dedent])) =
      some ⟨.mapping (entries.map PlainEntry.nodes), []⟩ := by
  have fuel : 3 * (entries.flatMap PlainEntry.tokens ++ [Token.dedent]).length + 5 =
      (11 * entries.length + 6) + entries.length + 2 := by
    rw [List.length_append, List.length_singleton, PlainEntry.length_tokens]
    omega
  have read := Reader.blockEntries_tokens (11 * entries.length + 6)
    { tokens := [], stems := [] ++ standardStems } entries []
  rw [ofTokens?, Reader.root_mapping, fuel, read]
  rfl

theorem parse?_text (entries : List PlainEntry) :
    parse? (PlainEntry.text entries) =
      some ⟨if entries = [] then .scalar .absent
        else .mapping (entries.map PlainEntry.nodes), []⟩ := by
  rw [parse?, cells?_text, Option.bind_eq_bind, Option.bind_some, tokens?_cells]
  cases entries with
  | nil => rfl
  | cons entry rest => exact ofTokens?_tokens (entry :: rest)

theorem mapM_nodes (document : Document) (entries : List PlainEntry) :
    (entries.map PlainEntry.nodes).mapM (fun (key, value) => do
      return ((← document.scalar? key).text, (document.scalar? value).bind number?)) =
        some (entries.map fun entry => (entry.key.text, word? entry.value.text)) := by
  induction entries with
  | nil => rfl
  | cons entry rest ih =>
      rw [List.map_cons, List.mapM_cons, ih]
      rfl

/-- A plain document has the entries that were written, each with the number that its value is. -/
theorem entries?_text (entries : List PlainEntry) :
    entries? (PlainEntry.text entries) =
      some (entries.map fun entry => (entry.key.text, word? entry.value.text)) := by
  rw [entries?, parse?_text]
  cases entries with
  | nil => rfl
  | cons entry rest => exact mapM_nodes _ (entry :: rest)

/-! ## Numbers -/

theorem digits?_concat (base : Nat) (symbols : List Char) (symbol : Char) :
    digits? base (symbols ++ [symbol]) = (digits? base symbols).bind fun value =>
      (digit? base symbol).map (value * base + ·) := by
  rw [digits?, List.foldlM_append]
  apply congrArg
  funext value
  cases digit : digit? base symbol <;> simp [digit]

theorem digits?_toDigits (number : Nat) : digits? 10 (Nat.toDigits 10 number) = some number := by
  induction number using Nat.strongRecOn with
  | ind number ih =>
      have lastDigit (digit : Nat) (small : digit < 10) :
          digit? 10 (Nat.digitChar digit) = some digit := by
        revert digit
        decide
      rw [Nat.toDigits_eq_if (by decide)]
      split
      next small =>
        rw [← List.nil_append [_], digits?_concat, lastDigit number small]
        simp [digits?]
      next large =>
        rw [digits?_concat, ih (number / 10) (by omega), lastDigit _ (Nat.mod_lt _ (by decide))]
        exact congrArg some (Nat.div_add_mod' number 10)

/-- No number but zero starts with a zero, and none with a sign. -/
theorem exists_toDigits_eq {number : Nat} (nonzero : number ≠ 0) :
    ∃ first rest, Nat.toDigits 10 number = first :: rest ∧ first ≠ '0' ∧ first ≠ '+' := by
  induction number using Nat.strongRecOn with
  | ind number ih =>
      rw [Nat.toDigits_eq_if (by decide)]
      split
      next small =>
        have unmarked : ∀ digit < 10, digit ≠ 0 →
            Nat.digitChar digit ≠ '0' ∧ Nat.digitChar digit ≠ '+' := by decide
        exact ⟨_, [], rfl, unmarked number small nonzero⟩
      next large =>
        rcases ih (number / 10) (by omega) (by omega) with ⟨first, rest, digitsEq, unmarked⟩
        rw [digitsEq]
        exact ⟨first, _, rfl, unmarked⟩

theorem word?_repr (number : Nat) :
    word? number.repr = if number < LittleEndian.span 8 then some number else none := by
  have decimal : wordIn? 10 (Nat.toDigits 10 number) =
      if number < LittleEndian.span 8 then some number else none := by
    rw [wordIn?, if_neg (by simp), digits?_toDigits]
    simp only [Option.filter_some, decide_eq_true_eq]
  by_cases zero : number = 0
  · subst zero
    decide
  · rcases exists_toDigits_eq zero with ⟨first, rest, digitsEq, unzero, unsigned⟩
    rw [word?, Nat.toList_repr, ← decimal, digitsEq]
    simp [unzero, unsigned]

/-- The word that a number is written as. -/
def Word.ofNat (number : Nat) : Word where
  symbols := Nat.toDigits 10 number
  nonempty := Nat.toDigits_ne_nil
  plain symbol digit := by
    have isDigit := Nat.isDigit_of_mem_toDigits (by decide) (by decide) digit
    simp [isWordSymbol, Char.isAlphanum, isDigit]

end ValueBus.Document

namespace ValueBus

open Document (PlainEntry Word entries?)

/-! ## Limits written down -/

def LimitField.word (field : LimitField) : Word where
  symbols := field.key.toList
  nonempty := by cases field <;> decide
  plain := List.all_eq_true.1 (by cases field <;> rfl)

/-- An entry for a bound. -/
def LimitField.entry (field : LimitField) (bound : Nat) : PlainEntry where
  key := field.word
  value := .ofNat bound
  reaches := by cases field <;> simp [word, key]

namespace Limits

def text (limits : Limits) : String :=
  PlainEntry.text (fields.map fun field => field.entry (limits.get field))

theorem field?_key (field : LimitField) : field? field.key = some field := by
  cases field <;> decide

/-- A document that gives bounds is read as those bounds, except that a number of more than 64 bits
is no number. -/
theorem bounds_entries (known : List (LimitField × Nat)) :
    (entries? (PlainEntry.text (known.map fun (field, bound) => field.entry bound))).map bounds =
      some (known.map fun (field, bound) =>
        (field, if bound < LittleEndian.span 8 then some bound else none)) := by
  rw [Document.entries?_text, Option.map_some, List.map_map, bounds, List.filterMap_map,
    ← List.filterMap_eq_map]
  apply congrArg
  apply congrArg (List.filterMap · known)
  funext ⟨field, bound⟩
  have fieldText : field.word.text = field.key := String.ofList_toList
  have number : Document.word? (Word.ofNat bound).text = _ := Document.word?_repr bound
  simp [LimitField.entry, fieldText, field?_key, number]

theorem ofDocument_text {limits : Limits} (nonzero : ∀ field, limits.get field ≠ 0)
    (fits : ∀ field, limits.get field < LittleEndian.span 8) :
    ofDocument entries? limits.text = .ok limits := by
  have read := bounds_entries (fields.map fun field => (field, limits.get field))
  simp only [List.map_map, Function.comp_def, fits, if_true] at read
  rcases Option.map_eq_some_iff.1 read with ⟨entries, entriesEq, boundsEq⟩
  refine ofDocument_eq_ok_iff.2 ⟨entries, entriesEq, ?_, nonzero⟩
  rw [boundsEq]
  refine ⟨?_, ?_, ?_⟩
  · rw [List.map_map]
    exact (by decide : fields.Nodup)
  · simp
  · intro field
    cases field <;> rfl

/-- Limits that are written to a file are loaded from it. -/
theorem ofFile_text {limits : Limits} (nonzero : ∀ field, limits.get field ≠ 0)
    (fits : ∀ field, limits.get field < LittleEndian.span 8) (path : String) :
    ofFile entries? path (some (Utf8.encode limits.text)) = .ok limits :=
  ofFile_eq_ok_iff.2 ⟨limits.text, rfl, ofDocument_text nonzero fits⟩

end Limits

end ValueBus
