import Scriptlet.Proofs.Grammar.Completeness

/-! The parser accepts exactly the grammar, as far as its limits go: a program
is read without faults just where the grammar derives it within the limit of
nesting, unless the levels of recursion run out, and then the tree is the
derived one. Statements are read the same way whatever follows them. -/
namespace Scriptlet.Grammar
open Parse Parse.State

/-- The levels of recursion ran out before, and that is on record. -/
def Deep (s : State) : Prop := ∃ d ∈ s.reports, d.fault = .tooDeep

theorem Deep.later {s s' : State} (deep : Deep s) (kept : s.reports <:+ s'.reports) : Deep s' := by
  obtain ⟨d, member, fault⟩ := deep
  exact ⟨d, kept.subset member, fault⟩

/-- The levels of recursion ran out, here or in a statement inside. -/
def GivesUp {α : Type} (result : EStateM.Result Abort State α) : Prop :=
  (∃ s', result = .error .tooDeep s') ∨ Deep (after result)

theorem deep_recovered {body : Parser Stmt} {s : State} (gives_up : GivesUp (body s)) :
    Deep (recovered body s).2 := by
  unfold recovered
  rcases gives_up with ⟨s', ran⟩ | deep
  · rw [ran]
    exact Deep.later ⟨_, List.mem_cons_self, rfl⟩ (law_reports.synchronized _)
  · cases ran : body s with
    | ok statement s' => rwa [ran] at deep
    | error abort s' =>
      rw [ran] at deep
      cases abort with
      | reported => exact deep.later (law_reports.synchronized _)
      | tooDeep =>
        exact deep.later ((law_reports.reportNext _ _).trans (law_reports.synchronized _))
      | overrun => exact deep.later (law_reports.stopped _)

/-- A statement is read the same way wherever the nesting has room for it. -/
def StatementSettles (limits : Limits) (depth : Nat) (ts : List Token) (made : Stmt) : Prop :=
  (∀ (s : State) (rest : List Token), s.nesting + made.nesting ≤ limits.nesting →
      statement limits depth (s.facing (ts ++ rest)) = .ok made (s.facing rest)) ∨
    ∀ (s : State) (rest : List Token), s.nesting + made.nesting ≤ limits.nesting →
      GivesUp (statement limits depth (s.facing (ts ++ rest)))

private theorem statementSettles_of_settles {limits : Limits} {depth : Nat} {ts : List Token} {made : Stmt}
    (settles : Settles (fun s _ => s.nesting + made.nesting ≤ limits.nesting)
      (statement limits depth) ts made) : StatementSettles limits depth ts made := by
  rcases settles with reads | exhausts
  · exact .inl reads
  · obtain ⟨faults, left, _, stops⟩ := exhausts
    exact .inr fun s rest room => .inl ⟨_, stops s rest room⟩

theorem head_of_declares {ts : List Token} {made : Stmt} (declared : Declares ts made) :
    ∃ t more, ts = t :: more ∧ t.kind ≠ .error ∧ t.kind ≠ .rightBrace := by
  cases declared with
  | bare word _ _ | initialized word _ _ _ _ | print word _ _ | block word _ _ =>
    refine ⟨_, _, rfl, ?_, ?_⟩ <;> rw [word] <;> decide
  | expression source _ =>
    obtain ⟨t, more, rfl, opens, _⟩ := head_of_derives source
    refine ⟨t, _, rfl, usable_of_opens opens, ?_⟩
    intro sort
    rw [sort] at opens
    cases opens

theorem length_of_program {ts : List Token} {found : List Stmt} (program : Program ts found) :
    found.length ≤ ts.length := by
  induction found generalizing ts with
  | nil => exact Nat.zero_le _
  | cons made found ih =>
    cases program with
    | cons first rest =>
      have some_token := List.length_pos_iff.2 first.ne_nil
      have more := ih rest
      simp only [List.length_append, List.length_cons]
      omega

theorem length_facing_program {ts : List Token} {found : List Stmt} (program : Program ts found)
    (s : State) (rest : List Token) : found.length ≤ (s.facing (ts ++ rest)).rest.length := by
  have whole := length_of_program program
  cases program with
  | nil => exact Nat.zero_le _
  | cons first more =>
    obtain ⟨t, us, rfl, usable, _⟩ := head_of_declares first
    simp only [List.cons_append, List.append_assoc] at whole ⊢
    rw [facing_cons s usable]
    simp only [List.length_cons, List.length_append] at whole ⊢
    omega

/-- Declarations of a derived program are read one after the other, and what
follows them is read as if it stood alone. -/
private theorem declarations_settle {limits : Limits} {depth : Nat} (ends : State → Bool)
    (each : ∀ us made, Declares us made → StatementSettles limits depth us made)
    (goes_on : ∀ (s : State) (us : List Token) made rest, Declares us made →
      ends (s.facing (us ++ rest)) = false)
    {ts : List Token} {found : List Stmt} (program : Program ts found) :
    (∀ bound (s : State) rest, found.length ≤ bound.length →
        s.nesting + Stmt.bodyNesting found ≤ limits.nesting →
        declarations (recovered (statement limits depth)) ends bound (s.facing (ts ++ rest)) =
          (found ++ (declarations (recovered (statement limits depth)) ends
            (bound.drop found.length) (s.facing rest)).1,
          (declarations (recovered (statement limits depth)) ends
            (bound.drop found.length) (s.facing rest)).2)) ∨
      ∀ bound (s : State) rest, found.length ≤ bound.length →
        s.nesting + Stmt.bodyNesting found ≤ limits.nesting →
        Deep (declarations (recovered (statement limits depth)) ends bound
          (s.facing (ts ++ rest))).2 := by
  have law := law_reports
  induction found generalizing ts with
  | nil =>
    cases program
    exact .inl fun bound s rest _ _ => rfl
  | cons made found ih =>
    cases program with
    | @cons us vs _ _ first rest =>
      -- one round of the loop on the first declaration
      have round : ∀ (t : Token) (bound : List Token) (s : State) (rest : List Token),
          declarations (recovered (statement limits depth)) ends (t :: bound)
              (s.facing (us ++ vs ++ rest)) =
            ((recovered (statement limits depth) (s.facing (us ++ (vs ++ rest)))).1.toList ++
              (declarations (recovered (statement limits depth)) ends bound
                (recovered (statement limits depth) (s.facing (us ++ (vs ++ rest)))).2).1,
            (declarations (recovered (statement limits depth)) ends bound
              (recovered (statement limits depth) (s.facing (us ++ (vs ++ rest)))).2).2) := by
        intro t bound s rest
        rw [List.append_assoc]
        simp only [declarations, goes_on s us made (vs ++ rest) first, Bool.false_eq_true, if_false]
      rcases each us made first with reads | gives_up
      · have made_first : ∀ (s : State) (rest : List Token),
            s.nesting + made.nesting ≤ limits.nesting →
            recovered (statement limits depth) (s.facing (us ++ (vs ++ rest))) =
              (some made, s.facing (vs ++ rest)) := by
          intro s rest room
          simp only [recovered, reads s (vs ++ rest) room]
        rcases ih rest with reads_more | stops
        · refine .inl fun bound s rest long room => ?_
          simp only [Stmt.bodyNesting] at room
          obtain _ | ⟨t, bound⟩ := bound
          · cases long
          · rw [round, made_first s rest (by omega),
              reads_more bound s rest (Nat.le_of_succ_le_succ long) (by omega)]
            rfl
        · refine .inr fun bound s rest long room => ?_
          simp only [Stmt.bodyNesting] at room
          obtain _ | ⟨t, bound⟩ := bound
          · cases long
          · rw [round, made_first s rest (by omega)]
            exact stops bound s rest (Nat.le_of_succ_le_succ long) (by omega)
      · refine .inr fun bound s rest long room => ?_
        simp only [Stmt.bodyNesting] at room
        obtain _ | ⟨t, bound⟩ := bound
        · cases long
        · rw [round]
          exact (deep_recovered (gives_up s (vs ++ rest) (by omega))).later
            (law.declarations (law.recovered (law.closed.statement limits depth)) _ _ _)

theorem fits_before {limit : Nat} {e : Expr} {t : Token} {s : State}
    (room : s.nesting + (e.nesting + 1) ≤ limit) (finish : t.kind = .semicolon)
    (rest : List Token) :
    Fits limit .expression e s (t :: rest) :=
  ⟨room, closes_cons finish (by decide) (by decide) rest⟩

theorem settles_uninitialized {limits : Limits} {depth : Nat} {next : Token}
    (usable : next.kind ≠ .error) (other : next.kind ≠ .equal) :
    Settles (fun _ rest => ∃ more, rest = next :: more) (initializer limits depth) [] none := by
  refine .inl fun s rest fits => ?_
  obtain ⟨more, rfl⟩ := fits
  exact bind_of_ok (accept?_refused (forall_upcoming usable (beq_eq_false_iff_ne.2 other) more))

private theorem settles_bare {limits : Limits} {depth : Nat} {var name finish : Token}
    (word : var.kind = .varWord) (sort : name.kind = .identifier)
    (ended : finish.kind = .semicolon) {Q : State → List Token → Prop} :
    Settles Q (statement limits (depth + 1)) [var, name, finish] (.declare name none) := by
  have usable : var.kind ≠ .error := by rw [word]; decide
  have leads : leader? var = some .declaration := by simp [leader?, word]
  have closing : finish.kind ≠ .error := by rw [ended]; decide
  have shape : [var, name, finish] = [var] ++ ([name] ++ ([] ++ ([finish] ++ []))) := rfl
  rw [shape]
  exact Settles.step (Settles.take? usable leads) (Settles.step (Settles.expect sort (by decide) _)
    (Settles.bind (settles_uninitialized closing (by rw [ended]; decide))
      (Settles.step (Settles.expect ended (by decide) _) (Settles.pure _))
      fun s rest _ => ⟨rest, rfl⟩))

private theorem leader?_of_opens {t : Token} (opens : opensExpression t.kind = true) :
    leader? t = none := by
  unfold leader?
  split
  · rename_i kind; rw [kind] at opens; cases opens
  · rename_i kind; rw [kind] at opens; cases opens
  · rename_i kind; rw [kind] at opens; cases opens
  · rfl

/-- What may stand before the expression of a statement, and the statement it makes. -/
inductive Lead : List Token → (Expr → Stmt) → Prop
  | alone : Lead [] .expression
  | print {print} (word : print.kind = .printWord) : Lead [print] .print
  | value {var name equals} (word : var.kind = .varWord) (sort : name.kind = .identifier)
      (sign : equals.kind = .equal) :
      Lead [var, name, equals] fun e => .declare name (some e)

def Unled (us : List Token) : Prop := ∀ t, upcoming? us = some t → leader? t = none

def upToSemicolon (limits : Limits) (depth : Nat) (fault : Fault) (make : Expr → Stmt) :
    Parser Stmt :=
  rule limits.nesting depth .expression >>= fun value =>
    expect .semicolon fault >>= fun _ => pure (make value)

theorem Lead.statement_eq {before : List Token} {make : Expr → Stmt} (lead : Lead before make)
    (limits : Limits) (depth : Nat) :
    ∃ fault, ∀ (s : State) (us : List Token), Unled us →
      statement limits (depth + 1) (s.facing (before ++ us)) =
        upToSemicolon limits depth fault make (s.facing us) := by
  cases lead with
  | alone => exact ⟨.semicolonAfterExpression, fun s us unled => bind_of_ok (take?_refused unled)⟩
  | @print print word =>
    have leads : leader? print = some .output := by simp [leader?, word]
    exact ⟨.semicolonAfterValue, fun s us _ =>
      bind_of_ok (take?_facing (by rw [word]; decide) leads s us)⟩
  | @value var name equals word sort sign =>
    have leads : leader? var = some .declaration := by simp [leader?, word]
    refine ⟨.semicolonAfterDeclaration, fun s us _ => ?_⟩
    have named : statement limits (depth + 1) (s.facing ([var, name, equals] ++ us)) =
        (initializer limits depth >>= fun value =>
          expect .semicolon .semicolonAfterDeclaration >>= fun _ =>
            pure (Stmt.declare name value)) (s.facing (equals :: us)) :=
      (bind_of_ok (take?_facing (by rw [word]; decide) leads s _)).trans
        (bind_of_ok (expect_facing sort (by decide) _ s _))
    have signed : initializer limits depth (s.facing (equals :: us)) =
        (rule limits.nesting depth .expression >>= fun e => pure (some e)) (s.facing us) :=
      bind_of_ok (accept?_facing (by rw [sign]; decide) (by rw [sign]; rfl) s us)
    rw [named, upToSemicolon]
    cases ran : rule limits.nesting depth .expression (s.facing us) with
    | ok e s' =>
      rw [bind_of_ok (signed.trans (bind_of_ok ran)), bind_of_ok ran]
    | error abort s' =>
      rw [bind_of_error (signed.trans (bind_of_error ran)), bind_of_error ran]

theorem unled_of_derives {ts : List Token} {e : Expr} (derived : Derives .expression ts e)
    (rest : List Token) : Unled (ts ++ rest) := by
  obtain ⟨t, more, rfl, opens, _⟩ := head_of_derives derived
  exact forall_upcoming (usable_of_opens opens) (leader?_of_opens opens) _

private theorem settles_lead {limits : Limits} {depth : Nat} {before ts : List Token}
    {make : Expr → Stmt} {finish : Token} {value : Expr} (lead : Lead before make)
    (source : Derives .expression ts value) (ended : finish.kind = .semicolon) :
    Settles (fun s _ => s.nesting + (value.nesting + 1) ≤ limits.nesting)
      (statement limits (depth + 1)) (before ++ (ts ++ [finish])) (make value) := by
  obtain ⟨fault, starts⟩ := lead.statement_eq limits depth
  have body : Settles (fun s _ => s.nesting + (value.nesting + 1) ≤ limits.nesting)
      (upToSemicolon limits depth fault make) (ts ++ [finish]) (make value) :=
    Settles.bind (settles_rule source depth)
      (Settles.step (Settles.expect ended (by decide) _) (Settles.pure _))
      fun s rest room => fits_before room ended rest
  have started : ∀ (s : State) (rest : List Token),
      statement limits (depth + 1) (s.facing (before ++ (ts ++ [finish]) ++ rest)) =
        upToSemicolon limits depth fault make ((reporting [] s).facing (ts ++ [finish] ++ rest)) := by
    intro s rest
    rw [List.append_assoc, List.append_assoc]
    exact starts s _ (unled_of_derives source _)
  exact Settles.behind body started fun _ _ room => room

/-- The end of a block's body: its closing brace or the end of the tokens. -/
def endsBody (s : State) : Bool := s.atEnd || s.sees .rightBrace

theorem body_eq (declaration : State → Option Stmt × State) (s : State) :
    body declaration s = .ok (declarations declaration endsBody s.rest s).1
      (declarations declaration endsBody s.rest s).2 := rfl

private theorem endsBody_brace (s : State) {closing : Token} (closed : closing.kind = .rightBrace)
    (rest : List Token) : endsBody (s.facing (closing :: rest)) = true := by
  rw [facing_cons s (by rw [closed]; decide)]
  simp [endsBody, sees, closed]

private theorem endsBody_declares (s : State) {us : List Token} {made : Stmt} (rest : List Token)
    (declared : Declares us made) : endsBody (s.facing (us ++ rest)) = false := by
  obtain ⟨t, more, rfl, usable, apart⟩ := head_of_declares declared
  rw [List.cons_append, facing_cons s usable]
  simp [endsBody, atEnd, sees, apart]

theorem declarations_ended {declaration : State → Option Stmt × State} {ends : State → Bool}
    {s : State} (ended : ends s = true) (bound : List Token) :
    declarations declaration ends bound s = ([], s) := by
  cases bound with
  | nil => rfl
  | cons t bound => simp only [declarations, ended, if_true]

private theorem entry_room {s : State} {n limit : Nat} (room : s.nesting + (n + 1) ≤ limit)
    (tokens : List Token) : (s.facing tokens).nesting + 1 ≤ limit := by
  rw [facing_nesting]
  omega

private theorem statementSettles_block {limits : Limits} {depth : Nat}
    (each : ∀ us made, Declares us made → StatementSettles limits depth us made)
    {opening closing : Token} {ts : List Token} {found : List Stmt}
    (opened : opening.kind = .leftBrace) (program : Program ts found)
    (closed : closing.kind = .rightBrace) :
    StatementSettles limits (depth + 1) (opening :: (ts ++ [closing])) (.block found) := by
  have usable : opening.kind ≠ .error := by rw [opened]; decide
  have leads : leader? opening = some .block := by simp [leader?, opened]
  have entered : ∀ (s : State) (rest : List Token),
      statement limits (depth + 1) (s.facing (opening :: (ts ++ [closing]) ++ rest)) =
        (nested limits.nesting (inBlock (body (recovered (statement limits depth)))) >>=
          fun statements => expect .rightBrace .braceAfterBlock >>= fun _ =>
            pure (Stmt.block statements))
          (s.facing (ts ++ closing :: rest)) := by
    intro s rest
    have shape : opening :: (ts ++ [closing]) ++ rest = opening :: (ts ++ closing :: rest) := by
      simp
    rw [shape]
    exact bind_of_ok (take?_facing usable leads s _)
  rcases declarations_settle endsBody each
    (fun s us made rest => endsBody_declares s rest) program with reads | stops
  · refine .inl fun s rest room => ?_
    simp only [Stmt.nesting] at room
    have looped : body (recovered (statement limits depth))
        (s.deeper.inner.facing (ts ++ closing :: rest)) =
        .ok found (s.deeper.inner.facing (closing :: rest)) := by
      have whole := reads _ s.deeper.inner (closing :: rest)
        (length_facing_program program s.deeper.inner (closing :: rest))
        (by simp only [State.inner, State.deeper]; omega)
      rw [declarations_ended (endsBody_brace _ closed rest), List.append_nil] at whole
      rw [body_eq, whole]
    have blocked := nested_ok (s := s.facing (ts ++ closing :: rest)) (entry_room room _)
      (inBlock_ok looped)
    rw [entered, bind_of_ok blocked]
    exact bind_of_ok (expect_facing closed (by decide) _ s rest)
  · refine .inr fun s rest room => .inr ?_
    simp only [Stmt.nesting] at room
    have deep := stops _ s.deeper.inner (closing :: rest)
      (length_facing_program program s.deeper.inner (closing :: rest))
      (by simp only [State.inner, State.deeper]; omega)
    have looped : ∃ made s', body (recovered (statement limits depth))
        (s.deeper.inner.facing (ts ++ closing :: rest)) = .ok made s' ∧ Deep s' := ⟨_, _, rfl, deep⟩
    obtain ⟨made, s', ran, deep⟩ := looped
    have blocked := nested_ok (s := s.facing (ts ++ closing :: rest)) (entry_room room _)
      (inBlock_ok ran)
    rw [entered, bind_of_ok blocked]
    -- nothing that is parsed later takes the report back
    exact Deep.later (s := { s' with blocks := s'.blocks - 1, nesting := s'.nesting - 1 }) deep
      (law_reports.bind (law_reports.closed.expect .rightBrace .braceAfterBlock)
        (fun _ => law_reports.pure (Stmt.block made)) _)

private theorem statement_settles (limits : Limits) (depth : Nat) (ts : List Token) (made : Stmt)
    (declared : Declares ts made) : StatementSettles limits depth ts made := by
  induction depth generalizing ts made with
  | zero => exact statementSettles_of_settles .tooDeep
  | succ depth ih =>
    cases declared with
    | bare word sort ended => exact statementSettles_of_settles (settles_bare word sort ended)
    | initialized word sort sign source ended =>
      exact statementSettles_of_settles (settles_lead (.value word sort sign) source ended)
    | print word source ended =>
      exact statementSettles_of_settles (settles_lead (.print word) source ended)
    | expression source ended =>
      exact statementSettles_of_settles (settles_lead .alone source ended)
    | block opened program closed => exact statementSettles_block ih opened program closed

def idle (tokens : List Token) : State where
  rest := []
  finish := (tokens.find? (·.kind == .eof)).getD (Token.eof 1)
  reports := []
  nesting := 0
  blocks := 0

theorem start_eq (tokens : List Token) :
    State.start tokens = (idle tokens).facing (tokens.takeWhile (·.kind != .eof)) := rfl

def Reads (limits : Limits) (ts : List Token) (found : List Stmt) : Prop :=
  ∀ bound (s : State) rest, found.length ≤ bound.length →
    s.nesting + Stmt.bodyNesting found ≤ limits.nesting →
    declarations (declaration limits) atEnd bound (s.facing (ts ++ rest)) =
      (found ++ (declarations (declaration limits) atEnd (bound.drop found.length)
        (s.facing rest)).1,
      (declarations (declaration limits) atEnd (bound.drop found.length) (s.facing rest)).2)

private theorem atEnd_declares (s : State) {us : List Token} {made : Stmt} (rest : List Token)
    (declared : Declares us made) : atEnd (s.facing (us ++ rest)) = false := by
  obtain ⟨t, more, rfl, usable, _⟩ := head_of_declares declared
  rw [List.cons_append, facing_cons s usable]
  rfl

theorem reads_or_deep {limits : Limits} {ts : List Token} {found : List Stmt}
    (derived : Program ts found) (room : Stmt.bodyNesting found ≤ limits.nesting) :
    Reads limits ts found ∨
      ∀ tokens rest, tokens.takeWhile (·.kind != .eof) = ts ++ rest →
        Deep (statements limits (State.start tokens)).2 := by
  rcases declarations_settle atEnd (statement_settles limits limits.depth)
    (fun s us made rest => atEnd_declares s rest) derived with reads | stops
  · exact .inl reads
  · refine .inr fun tokens rest whole => ?_
    rw [start_eq, whole]
    exact stops _ _ rest (length_facing_program derived _ rest) (by simpa [idle] using room)

theorem program_of_reads {limits : Limits} {ts : List Token} {found : List Stmt}
    (reads : Reads limits ts found) (derived : Program ts found)
    (room : Stmt.bodyNesting found ≤ limits.nesting) {tokens : List Token}
    (whole : tokens.takeWhile (·.kind != .eof) = ts) : program limits tokens = ⟨found, []⟩ := by
  have long := length_facing_program derived (idle tokens) []
  have ran := reads _ (idle tokens) [] long (by simpa [idle] using room)
  rw [declarations_ended (s := (idle tokens).facing []) rfl, List.append_nil, List.append_nil]
    at ran
  unfold program statements
  rw [start_eq, whole, ran]
  rfl

private theorem not_deep_of_program {limits : Limits} {tokens : List Token} {found : List Stmt}
    (valid : program limits tokens = ⟨found, []⟩) :
    ¬ Deep (statements limits (State.start tokens)).2 := by
  rintro ⟨d, member, _⟩
  have none_left := congrArg Parsed.diagnostics valid
  simp only [program, List.reverse_eq_nil_iff] at none_left
  rw [none_left] at member
  cases member

theorem reads_of_program {limits : Limits} {tokens : List Token} {found : List Stmt}
    (valid : program limits tokens = ⟨found, []⟩) :
    Reads limits (tokens.takeWhile (·.kind != .eof)) found := by
  obtain ⟨derived, room⟩ := program_sound valid
  rcases reads_or_deep derived room with reads | deep
  · exact reads
  · exact absurd (deep tokens [] (List.append_nil _).symm) (not_deep_of_program valid)

theorem ne_eof_of_takeWhile {tokens : List Token} {t : Token}
    (member : t ∈ tokens.takeWhile (·.kind != .eof)) : t.kind ≠ .eof :=
  bne_iff_ne.1 (List.all_eq_true.1 List.all_takeWhile t member)

theorem takeWhile_finish {tokens : List Token} {finish : Token}
    (open_ : ∀ t ∈ tokens, t.kind ≠ .eof) (ended : finish.kind = .eof) :
    (tokens ++ [finish]).takeWhile (·.kind != .eof) = tokens := by
  rw [List.takeWhile_append_of_pos (fun t member => by simpa using open_ t member)]
  simp [ended]

/-- Without faults a parse finds just what the grammar derives within the limit
of nesting, and all that the grammar so derives is found, unless the levels of
recursion run out. -/
theorem program_eq_iff_derives (limits : Limits) (tokens : List Token) (finish : Token)
    (plain : ∀ t ∈ tokens, t.kind ≠ .error ∧ t.kind ≠ .eof) (ended : finish.kind = .eof) :
    (∀ found, program limits (tokens ++ [finish]) = ⟨found, []⟩ →
      Program tokens found ∧ Stmt.bodyNesting found ≤ limits.nesting) ∧
    (∀ found, Program tokens found → Stmt.bodyNesting found ≤ limits.nesting →
      (∀ d ∈ (program limits (tokens ++ [finish])).diagnostics, d.fault ≠ .tooDeep) →
      program limits (tokens ++ [finish]) = ⟨found, []⟩) := by
  have whole := takeWhile_finish (fun t member => (plain t member).2) ended
  constructor
  · intro found valid
    have sound := program_sound valid
    rwa [whole] at sound
  · intro found derived room shallow
    rcases reads_or_deep derived room with reads | deep
    · exact program_of_reads reads derived room whole
    · obtain ⟨d, member, fault⟩ := deep (tokens ++ [finish]) [] (by rw [whole, List.append_nil])
      refine absurd fault (shallow d ?_)
      simpa [program] using member

/-- A block with two chains in one another, read both ways. -/
theorem program_eq_iff_derives_block :
    let name (lexeme : String) : Token := ⟨.identifier, lexeme, 1, .nil⟩
    let tokens : List Token := [.plain .leftBrace 1, .plain .printWord 1, name "a", .plain .plus 1,
      name "b", .plain .star 1, .plain .minus 1, name "c", .plain .semicolon 1, .plain .rightBrace 2]
    let product := Expr.binary (.reference (name "b")) (.plain .star 1)
      (.unary (.plain .minus 1) (.reference (name "c")))
    let found := [Stmt.block [.print (.binary (.reference (name "a")) (.plain .plus 1) product)]]
    Program tokens found ∧ program .standard (tokens ++ [.eof 2]) = ⟨found, []⟩ := by
  intro name tokens product found
  have both := program_eq_iff_derives .standard tokens (.eof 2) (by decide) rfl
  have sound := both.1 found (by decide +kernel)
  exact ⟨sound.1, both.2 _ sound.1 sound.2 (by decide +kernel)⟩

end Scriptlet.Grammar
