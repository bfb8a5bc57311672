import DaoGen.Emit.Printer
import DaoGen.Proofs.Emit.Token
set_option autoImplicit false

/-!
# Reading generated code back

The text of a list of statements, read token by token as TypeScript reads it: a `;` ends
a statement, an `if` with its condition opens a block at `{`, and the block ends at `}`.
No block belongs to another `if` than the one in front of it.

Only the statements that upgrades are made of are read: calls of a method, assignments
to a variable, and blocks under a comparison.  Reading the printed text of such
statements gives the statements back (`read_renderAll`).
-/

namespace DaoGen.Emit

/-! ## The reader -/

/-- Words that stand where a name can stand and are no variables. -/
def reservedWords : List String :=
  ["await", "break", "case", "catch", "class", "const", "continue", "debugger", "default",
    "delete", "do", "else", "enum", "export", "extends", "false", "finally", "for", "function",
    "if", "implements", "import", "in", "instanceof", "interface", "let", "new", "null",
    "package", "private", "protected", "public", "return", "static", "super", "switch", "this",
    "throw", "true", "try", "typeof", "var", "void", "while", "with", "yield"]

/-- A variable or a number. -/
def readAtom : Token → Option Expr
  | .name text => if text ∈ reservedWords then none else some (.name text)
  | .number value => some (.number value)
  | _ => none

/-- Arguments, separated by commas, up to the closing parenthesis. -/
def readItems : List Token → Option (List Expr)
  | [item, .mark ')'] => (readAtom item).map ([·])
  | item :: .mark ',' :: rest => do return (← readAtom item) :: (← readItems rest)
  | _ => none

/-- The arguments of a call up to the closing parenthesis. -/
def readArguments : List Token → Option (List Expr)
  | [.mark ')'] => some []
  | items => readItems items

/-- A statement in front of its `;`. -/
def readSimple : List Token → Option Stmt
  | [.name target, .mark '=', value] => do
    return .assign (← readAtom (.name target)) (← readAtom value)
  | .name target :: .mark '.' :: .name method :: .mark '(' :: arguments => do
    return .eval (.call (.member (← readAtom (.name target)) method) (← readArguments arguments))
  | _ => none

/-- How two values are compared. -/
def readComparison : Token → Option Comparison
  | .atMost => some .atMost
  | .equal => some .equal
  | _ => none

/-- The condition of a block in front of its `{`. -/
def readCondition : List Token → Option Expr
  | [.name "if", .mark '(', left, comparison, right, .mark ')'] => do
    return .compare (← readComparison comparison) (← readAtom left) (← readAtom right)
  | _ => none

/-- What has been read of a list of statements. -/
structure Reader where
  /-- the conditions of the open blocks, innermost first, with the statements in front -/
  outer : List (List Stmt × Expr) := []
  /-- the statements of the innermost block -/
  done : List Stmt := []
  /-- the tokens of the statement being read -/
  pending : List Token := []

namespace Reader

/-- The reader after one more token. -/
def step (r : Reader) : Token → Option Reader
  | .mark ';' => (readSimple r.pending).map fun stmt =>
    { r with done := r.done ++ [stmt], pending := [] }
  | .mark '\x7b' => (readCondition r.pending).map fun condition =>
    ⟨(r.done, condition) :: r.outer, [], []⟩
  | .mark '\x7d' =>
    match r.pending, r.outer with
    | [], (before, condition) :: outer => some ⟨outer, before ++ [.ifThen condition r.done], []⟩
    | _, _ => none
  | token => some { r with pending := r.pending ++ [token] }

/-- The reader after a list of tokens. -/
def steps (r : Reader) : List Token → Option Reader
  | [] => some r
  | token :: rest => (r.step token).bind (steps · rest)

end Reader

/-- The statements of a text. -/
def read (text : String) : Option (List Stmt) :=
  match Reader.steps {} (tokens text.toList) with
  | some ⟨[], stmts, []⟩ => some stmts
  | _ => none

/-! ## Statements that are read back -/

/-- A name that stands for a variable. -/
def IsVariable (name : String) : Prop := IsName name ∧ name ∉ reservedWords

/-- A variable or a number. -/
inductive Expr.Atomic : Expr → Prop
  | name {text : String} (h : IsVariable text) : Atomic (.name text)
  | number (value : Nat) : Atomic (.number value)

/-- Calls of a method, assignments to a variable, and blocks under a comparison. -/
inductive Stmt.Readable : Stmt → Prop
  | invoke {target method : String} {arguments : List Expr} (htarget : IsVariable target)
      (hmethod : IsName method) (harguments : ∀ a ∈ arguments, a.Atomic) :
      Readable (.eval (.call (.member (.name target) method) arguments))
  | assign {target : String} {value : Expr} (htarget : IsVariable target) (hvalue : value.Atomic) :
      Readable (.assign (.name target) value)
  | ifThen {comparison : Comparison} {left right : Expr} {body : List Stmt} (hleft : left.Atomic)
      (hright : right.Atomic) (hbody : ∀ stmt ∈ body, Readable stmt) :
      Readable (.ifThen (.compare comparison left right) body)

/-- The token of a variable or a number. -/
def Expr.token : Expr → Token
  | .name text => .name text
  | .number value => .number value
  | _ => .other ""

/-! ## Tokens of printed expressions -/

theorem tokens_atom {e : Expr} (he : e.Atomic) {c : Char} (hc : endsNumber c = true)
    (rest : List Char) :
    tokens (e.render.toList ++ c :: rest) = e.token :: tokens (c :: rest) := by
  cases he with
  | name h =>
    simp only [endsNumber, Bool.and_eq_true] at hc
    exact tokens_name h.1 hc.1 rest
  | number value => exact tokens_number value hc rest

theorem readAtom_token {e : Expr} (he : e.Atomic) : readAtom e.token = some e := by
  cases he with
  | name h => simp [Expr.token, readAtom, h.2]
  | number value => rfl

/-- The tokens of arguments with commas between them. -/
def argumentTokens : List Expr → List Token
  | [] => []
  | [e] => [e.token]
  | e :: rest => e.token :: .mark ',' :: argumentTokens rest

theorem tokens_arguments {arguments : List Expr} (h : ∀ a ∈ arguments, a.Atomic)
    (rest : List Char) :
    tokens ((Expr.renderAll arguments).toList ++ ')' :: rest) =
      argumentTokens arguments ++ .mark ')' :: tokens rest := by
  induction arguments with
  | nil => rfl
  | cons e more ih =>
    have he : e.Atomic := h e (by simp)
    cases more with
    | nil =>
      rw [Expr.renderAll, tokens_atom he (by decide)]
      rfl
    | cons next more =>
      have hmore := ih fun a ha => h a (List.mem_cons_of_mem _ ha)
      have htext : (Expr.renderAll (e :: next :: more)).toList ++ ')' :: rest =
          e.render.toList ++ ',' :: ' ' ::
            ((Expr.renderAll (next :: more)).toList ++ ')' :: rest) := by
        rw [Expr.renderAll, String.toList_append, String.toList_append, List.append_assoc,
          List.append_assoc]
        · rfl
        · simp
      rw [htext, tokens_atom he (by decide)]
      show _ :: .mark ',' :: tokens ((Expr.renderAll (next :: more)).toList ++ ')' :: rest) = _
      rw [hmore]
      rfl

theorem readItems_arguments {e : Expr} {arguments : List Expr}
    (h : ∀ a ∈ e :: arguments, a.Atomic) :
    readItems (argumentTokens (e :: arguments) ++ [.mark ')']) = some (e :: arguments) := by
  induction arguments generalizing e with
  | nil =>
    have he := readAtom_token (h e (by simp))
    simp [argumentTokens, readItems, he]
  | cons next more ih =>
    have he := readAtom_token (h e (by simp))
    have hmore := ih fun a ha => h a (List.mem_cons_of_mem _ ha)
    show readItems (e.token :: .mark ',' :: (argumentTokens (next :: more) ++ [.mark ')'])) = _
    simp [readItems, he, hmore]

theorem readArguments_arguments {arguments : List Expr} (h : ∀ a ∈ arguments, a.Atomic) :
    readArguments (argumentTokens arguments ++ [.mark ')']) = some arguments := by
  cases arguments with
  | nil => rfl
  | cons e more =>
    rw [← readItems_arguments h]
    cases he : h e (by simp) with
    | name hvar => cases more <;> rfl
    | number value => cases more <;> rfl

/-! ## Lines -/

theorem tokens_blanks (n : Nat) (rest : List Char) :
    tokens (List.replicate n ' ' ++ rest) = tokens rest := by
  induction n with
  | zero => rfl
  | succ n ih =>
    rw [List.replicate_succ, List.cons_append]
    exact ih

/-- A line has the tokens of its text. -/
theorem tokens_line (level : Nat) (text : String) (rest : List Char) :
    tokens ((line level text).toList ++ rest) = tokens (text.toList ++ '\n' :: rest) := by
  rw [line, indent, String.toList_append, String.toList_append, String.toList_ofList,
    List.append_assoc, List.append_assoc, tokens_blanks]
  rfl

/-! ## Reading a printed statement -/

namespace Reader

/-- Tokens that neither end a statement nor open or close a block. -/
def isPlain : Token → Bool
  | .mark c => c ≠ ';' && c ≠ '\x7b' && c ≠ '\x7d'
  | _ => true

@[simp] theorem isPlain_name (text : String) : isPlain (.name text) = true := rfl

@[simp] theorem isPlain_mark (c : Char) :
    isPlain (.mark c) = (c ≠ ';' && c ≠ '\x7b' && c ≠ '\x7d') := rfl

theorem step_of_isPlain (r : Reader) {token : Token} (h : isPlain token = true) :
    r.step token = some { r with pending := r.pending ++ [token] } := by
  unfold step
  split <;> simp_all [isPlain]

/-- Tokens inside a statement wait for its end. -/
theorem steps_of_isPlain (r : Reader) {first : List Token}
    (h : ∀ token ∈ first, isPlain token = true) (rest : List Token) :
    r.steps (first ++ rest) = ({ r with pending := r.pending ++ first } : Reader).steps rest := by
  induction first generalizing r with
  | nil => simp
  | cons token more ih =>
    rw [List.cons_append, steps, step_of_isPlain r (h token (by simp)), Option.bind_some,
      ih _ fun t ht => h t (List.mem_cons_of_mem _ ht)]
    simp

end Reader

@[simp] theorem isPlain_token (e : Expr) : Reader.isPlain e.token = true := by
  cases e <;> rfl

theorem isPlain_argumentTokens (arguments : List Expr) :
    ∀ token ∈ argumentTokens arguments, Reader.isPlain token = true := by
  induction arguments with
  | nil => simp [argumentTokens]
  | cons e more ih =>
    cases more with
    | nil => simp [argumentTokens, isPlain_token]
    | cons next more =>
      intro token ht
      rcases List.mem_cons.1 ht with rfl | ht
      · exact isPlain_token e
      · rcases List.mem_cons.1 ht with rfl | ht
        · rfl
        · exact ih token ht

theorem tokens_invoke {target method : String} {arguments : List Expr}
    (htarget : IsVariable target) (hmethod : IsName method) (harguments : ∀ a ∈ arguments, a.Atomic)
    (level : Nat) (rest : List Char) :
    tokens ((Stmt.render level
        (.eval (.call (.member (.name target) method) arguments))).toList ++ rest) =
      [.name target, .mark '.', .name method, .mark '('] ++ argumentTokens arguments ++
        [.mark ')', .mark ';'] ++ tokens rest := by
  have htext : (Expr.render (.call (.member (.name target) method) arguments) ++ ";").toList ++
      '\n' :: rest =
      target.toList ++ '.' :: (method.toList ++ '(' ::
        ((Expr.renderAll arguments).toList ++ ')' :: ';' :: '\n' :: rest)) := by
    simp [Expr.render]
  rw [Stmt.render, tokens_line, htext, tokens_name htarget.1 (by decide)]
  show _ :: .mark '.' :: tokens (method.toList ++ '(' :: _) = _
  rw [tokens_name hmethod (by decide)]
  show _ :: _ :: _ :: .mark '(' :: tokens (_ ++ ')' :: _) = _
  rw [tokens_arguments harguments]
  simp
  rfl

theorem tokens_assign {target : String} {value : Expr} (htarget : IsVariable target)
    (hvalue : value.Atomic) (level : Nat) (rest : List Char) :
    tokens ((Stmt.render level (.assign (.name target) value)).toList ++ rest) =
      [.name target, .mark '=', value.token, .mark ';'] ++ tokens rest := by
  have htext : (Expr.render (.name target) ++ " = " ++ value.render ++ ";").toList ++
      '\n' :: rest =
      target.toList ++ ' ' :: '=' :: ' ' :: (value.render.toList ++ ';' :: '\n' :: rest) := by
    simp [Expr.render]
  rw [Stmt.render, tokens_line, htext, tokens_name htarget.1 (by decide)]
  show _ :: .mark '=' :: tokens (value.render.toList ++ ';' :: _) = _
  rw [tokens_atom hvalue (by decide)]
  rfl

/-- The token of a comparison. -/
def Comparison.token : Comparison → Token
  | .atMost => .atMost
  | .equal => .equal

@[simp] theorem isPlain_comparison (comparison : Comparison) :
    Reader.isPlain comparison.token = true := by
  cases comparison <;> rfl

@[simp] theorem readComparison_token (comparison : Comparison) :
    readComparison comparison.token = some comparison := by
  cases comparison <;> rfl

theorem tokens_operator (comparison : Comparison) (rest : List Char) :
    tokens (' ' :: (comparison.operator.toList ++ ' ' :: rest)) =
      comparison.token :: tokens rest := by
  cases comparison <;> rfl

/-- The opening line of a block. -/
theorem tokens_condition {left right : Expr} (comparison : Comparison) (hleft : left.Atomic)
    (hright : right.Atomic) (level : Nat) (rest : List Char) :
    tokens ((line level ("if (" ++ (Expr.compare comparison left right).render ++
        ") \x7b")).toList ++ rest) =
      [.name "if", .mark '(', left.token, comparison.token, right.token, .mark ')',
        .mark '\x7b'] ++ tokens rest := by
  have htext : ("if (" ++ (Expr.compare comparison left right).render ++ ") \x7b").toList ++
      '\n' :: rest =
      'i' :: 'f' :: ' ' :: '(' :: (left.render.toList ++ ' ' ::
        (comparison.operator.toList ++ ' ' ::
          (right.render.toList ++ ')' :: ' ' :: '\x7b' :: '\n' :: rest))) := by
    simp [Expr.render]
  rw [tokens_line, htext]
  show .name "if" :: .mark '(' :: tokens (left.render.toList ++ ' ' :: _) = _
  rw [tokens_atom hleft (by decide), tokens_operator, tokens_atom hright (by decide)]
  rfl

/-- The closing line of a block. -/
theorem tokens_close (level : Nat) (rest : List Char) :
    tokens ((line level "\x7d").toList ++ rest) = .mark '\x7d' :: tokens rest := by
  rw [tokens_line]
  rfl

/-! ## Reading a printed list of statements -/

/-- Reading the text of a statement adds it to the statements read. -/
def Reads (stmt : Stmt) : Prop :=
  ∀ (level : Nat) (outer : List (List Stmt × Expr)) (done : List Stmt) (rest : List Char),
    Reader.steps ⟨outer, done, []⟩ (tokens ((stmt.render level).toList ++ rest)) =
      Reader.steps ⟨outer, done ++ [stmt], []⟩ (tokens rest)

theorem steps_renderAll {stmts : List Stmt} (h : ∀ stmt ∈ stmts, Reads stmt) (level : Nat)
    (outer : List (List Stmt × Expr)) (done : List Stmt) (rest : List Char) :
    Reader.steps ⟨outer, done, []⟩ (tokens ((Stmt.renderAll level stmts).toList ++ rest)) =
      Reader.steps ⟨outer, done ++ stmts, []⟩ (tokens rest) := by
  induction stmts generalizing done with
  | nil => simp [Stmt.renderAll]
  | cons stmt more ih =>
    rw [Stmt.renderAll, String.toList_append, List.append_assoc, h stmt (by simp),
      ih fun s hs => h s (List.mem_cons_of_mem _ hs)]
    simp

theorem readAtom_name {target : String} (h : IsVariable target) :
    readAtom (.name target) = some (.name target) :=
  readAtom_token (.name h)

/-- The tokens of a statement up to its `;` wait, and the `;` reads them. -/
theorem steps_simple {stmt : Stmt} {pending : List Token}
    (hplain : ∀ token ∈ pending, Reader.isPlain token = true)
    (hread : readSimple pending = some stmt) (outer : List (List Stmt × Expr)) (done : List Stmt)
    (more : List Token) :
    Reader.steps ⟨outer, done, []⟩ (pending ++ .mark ';' :: more) =
      Reader.steps ⟨outer, done ++ [stmt], []⟩ more := by
  rw [Reader.steps_of_isPlain _ hplain]
  simp [Reader.steps, Reader.step, hread]

theorem Stmt.Readable.reads {stmt : Stmt} (h : stmt.Readable) : Reads stmt := by
  induction h with
  | @invoke target method arguments htarget hmethod harguments =>
    intro level outer done rest
    have hhead : ∀ token ∈ [.name target, .mark '.', .name method, .mark '('],
        Reader.isPlain token = true := by
      simp
    have hplain : ∀ token ∈ [.name target, .mark '.', .name method, .mark '('] ++
        (argumentTokens arguments ++ [.mark ')']), Reader.isPlain token = true := by
      intro token htoken
      rcases List.mem_append.1 htoken with htoken | htoken
      · exact hhead token htoken
      · rcases List.mem_append.1 htoken with htoken | htoken
        · exact isPlain_argumentTokens arguments token htoken
        · obtain rfl := List.mem_singleton.1 htoken
          rfl
    have hread : readSimple ([.name target, .mark '.', .name method, .mark '('] ++
        (argumentTokens arguments ++ [.mark ')'])) =
          some (.eval (.call (.member (.name target) method) arguments)) := by
      simp [readSimple, readAtom_name htarget, readArguments_arguments harguments]
    rw [tokens_invoke htarget hmethod harguments, ← steps_simple hplain hread outer done]
    simp
  | @assign target value htarget hvalue =>
    intro level outer done rest
    have hplain : ∀ token ∈ [.name target, .mark '=', value.token],
        Reader.isPlain token = true := by
      simp
    have hread : readSimple [.name target, .mark '=', value.token] =
        some (.assign (.name target) value) := by
      simp [readSimple, readAtom_name htarget, readAtom_token hvalue]
    rw [tokens_assign htarget hvalue]
    exact steps_simple hplain hread outer done (tokens rest)
  | @ifThen comparison left right body hleft hright hbody ih =>
    intro level outer done rest
    have hplain : ∀ token ∈ [.name "if", .mark '(', left.token, comparison.token, right.token,
        .mark ')'], Reader.isPlain token = true := by
      simp
    have hread : readCondition [.name "if", .mark '(', left.token, comparison.token, right.token,
        .mark ')'] = some (.compare comparison left right) := by
      simp [readCondition, readAtom_token hleft, readAtom_token hright]
    rw [Stmt.render, String.toList_append, String.toList_append, List.append_assoc,
      List.append_assoc, tokens_condition comparison hleft hright]
    -- The condition opens a block, the body is read in it, and the brace closes it.
    refine (Reader.steps_of_isPlain _ hplain (.mark '\x7b' :: tokens _)).trans ?_
    rw [List.nil_append, Reader.steps, Reader.step, hread]
    refine (steps_renderAll ih (level + 1) ((done, _) :: outer) [] _).trans ?_
    rw [tokens_close]
    simp [Reader.steps, Reader.step]

/-- The text of readable statements is read as these statements. -/
theorem read_renderAll {stmts : List Stmt} (h : ∀ stmt ∈ stmts, stmt.Readable) (level : Nat) :
    read (Stmt.renderAll level stmts) = some stmts := by
  have hsteps := steps_renderAll (fun stmt hstmt => (h stmt hstmt).reads) level [] [] []
  rw [List.append_nil, List.nil_append] at hsteps
  rw [read, hsteps]
  rfl

end DaoGen.Emit
