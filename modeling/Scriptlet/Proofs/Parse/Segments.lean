import Mathlib.Data.List.TakeWhile
import Scriptlet.Proofs.Grammar.Lines
import Scriptlet.Proofs.Parse.Blocks

/-! Parsing falls apart at the ends of statements. A statement that ends with its
first semicolon, a block without blocks inside, and any program without faults
are read by themselves: what follows them is parsed as if it stood alone, and the
faults of both are reported one after the other. A block with blocks inside is
read by itself where these stand at places where a statement may begin or behind a
statement that has broken off; a block at whose first brace a statement breaks off
loses it to the recovery, and its second one then closes the block around it. -/
namespace Scriptlet.Parse
open State Grammar Horizon

/-- A parse reads these tokens by themselves: the same statements and reports,
whatever came before and comes next. -/
def Separate (limits : Limits) (ts : List Token) (found : List Stmt)
    (reports : List Diagnostic) : Prop :=
  ∀ (s : State) (rest : List Token), s.nesting = 0 → s.blocks = 0 →
    statements limits (s.facing (ts ++ rest)) =
      (found ++ (statements limits ({ s with reports := reports ++ s.reports }.facing rest)).1,
        (statements limits ({ s with reports := reports ++ s.reports }.facing rest)).2)

private theorem atEnd_facing (s : State) {ts : List Token} (some_token : ∃ t ∈ ts, t.kind ≠ .error)
    (rest : List Token) : atEnd (s.facing (ts ++ rest)) = false := by
  obtain ⟨t, member, usable⟩ := some_token
  unfold atEnd
  rw [facing_rest]
  cases shape : (ts ++ rest).dropWhile isLexicalError with
  | nil =>
    have lexical := List.dropWhile_eq_nil_iff.1 shape t (List.mem_append_left rest member)
    simp [isLexicalError, usable] at lexical
  | cons u more => rfl

private theorem separate_of_declaration {limits : Limits} {ts : List Token} (made : Option Stmt)
    (reports : List Diagnostic) (some_token : ∃ t ∈ ts, t.kind ≠ .error)
    (takes : ∀ (s : State) rest, s.nesting = 0 → s.blocks = 0 →
      declaration limits (s.facing (ts ++ rest)) =
        (made, { s with reports := reports ++ s.reports }.facing rest)) :
    Separate limits ts made.toList reports := by
  intro s rest no_nesting no_blocks
  have outside : (s.facing (ts ++ rest)).blocks = 0 := no_blocks
  have first := allDeclarations_next (progresses_declaration limits) outside
    (atEnd_facing s some_token rest)
  rw [takes s rest no_nesting no_blocks] at first
  exact first

private theorem statements_place (limits : Limits) {h : Horizon} (bare : h.tokens = []) {s : State}
    (meets : s.finish = h.next) (outside : s.blocks = 0) :
    statements limits (h.place s) =
      ((statements limits s).1, h.place (statements limits s).2) := by
  refine allDeclarations_place (fun s => s.finish = h.next) (progresses_declaration limits)
    (fun s meets _ => ?_) (fun s _ => ?_) meets outside
  · obtain ⟨ran, met⟩ := local_statement bare limits limits.depth s meets
    exact ⟨recovered_place (complains.statement limits _) ran met (refuses_of_bare bare),
      (follows_recovered limits limits.depth s).finish.trans meets⟩
  · simp only [atEnd, rest_place_bare bare]

section Programs
variable {limits : Limits} {ts : List Token} {found : List Stmt} {reports : List Diagnostic}

private theorem takeWhile_unended (unended : ∀ t ∈ ts, t.kind ≠ .eof) (more : List Token) :
    (ts ++ more).takeWhile (·.kind != .eof) = ts ++ more.takeWhile (·.kind != .eof) :=
  List.takeWhile_append_of_pos fun t member => bne_iff_ne.2 (unended t member)

private theorem idle_append (unended : ∀ t ∈ ts, t.kind ≠ .eof) (more : List Token) :
    idle (ts ++ more) = idle more := by
  have behind : ts.find? (·.kind == .eof) = none :=
    List.find?_eq_none.2 fun t member => by simpa using unended t member
  simp only [idle, List.find?_append, behind, Option.none_or]

private theorem start_append (unended : ∀ t ∈ ts, t.kind ≠ .eof) (more : List Token) :
    State.start (ts ++ more) =
      (idle more).facing (ts ++ more.takeWhile (·.kind != .eof)) := by
  rw [start_eq, idle_append unended, takeWhile_unended unended]

private theorem program_finish {finish : Token} (ended : finish.kind = .eof) :
    program limits [finish] = ⟨[], []⟩ := by
  have nothing : [finish].takeWhile (·.kind != .eof) = [] := by simp [ended]
  unfold program statements
  rw [start_eq, nothing]
  rfl

theorem Separate.program_append (separate : Separate limits ts found reports)
    (unended : ∀ t ∈ ts, t.kind ≠ .eof) (more : List Token) :
    program limits (ts ++ more) =
      ⟨found ++ (program limits more).tree,
        reports.reverse ++ (program limits more).diagnostics⟩ := by
  let h : Horizon := ⟨[], (idle more).finish, reports, fun _ head => by cases head⟩
  have bare : h.tokens = [] := rfl
  have placed : ({ idle more with reports := reports ++ (idle more).reports } : State).facing
      (more.takeWhile (·.kind != .eof)) = h.place (State.start more) := by
    rw [start_eq, place_facing]
    simp [h, place, idle]
  have alone : statements limits (h.place (State.start more)) = _ :=
    statements_place limits bare rfl rfl
  have whole := separate (idle more) (more.takeWhile (·.kind != .eof)) rfl rfl
  rw [placed, alone] at whole
  unfold program
  rw [start_append unended, whole]
  simp [place, h]

theorem Separate.program_eq (separate : Separate limits ts found reports)
    (unended : ∀ t ∈ ts, t.kind ≠ .eof) {finish : Token} (ended : finish.kind = .eof) :
    program limits (ts ++ [finish]) = ⟨found, reports.reverse⟩ := by
  rw [separate.program_append unended, program_finish ended, List.append_nil, List.append_nil]

theorem separate_of_valid {finish : Token} (unended : ∀ t ∈ ts, t.kind ≠ .eof)
    (ended : finish.kind = .eof) (valid : program limits (ts ++ [finish]) = ⟨found, []⟩) :
    Separate limits ts found [] := by
  have whole := takeWhile_finish unended ended
  have reads := reads_of_program valid
  obtain ⟨derived, room⟩ := program_sound valid
  rw [whole] at reads derived
  intro s rest no_nesting no_blocks
  have long := length_facing_program derived s rest
  have ran := reads (s.facing (ts ++ rest)).rest s rest long (by omega)
  have covers : (s.facing rest).rest.length ≤
      ((s.facing (ts ++ rest)).rest.drop found.length).length := by
    have counted := length_of_program derived
    rw [List.length_drop]
    cases derived with
    | nil => exact Nat.le_refl _
    | cons first later =>
      obtain ⟨t, us, rfl, usable, _⟩ := head_of_declares first
      have shorter : (s.facing rest).rest.length ≤ rest.length :=
        (List.dropWhile_suffix isLexicalError).length_le
      simp only [List.cons_append, List.append_assoc] at counted ⊢
      rw [facing_cons s usable]
      simp only [List.length_cons, List.length_append] at counted ⊢
      omega
  have outside : (s.facing rest).blocks = 0 := no_blocks
  have loop := declarations_bound (progresses_declaration limits) outside covers (Nat.le_refl _)
  rw [loop] at ran
  exact ran

end Programs

section Blocks
variable {limits : Limits} {room : Nat} {opening closing : Token} {inner : List Token}

private theorem declaration_block (nests : room < limits.nesting) (levels : room < limits.depth)
    (opened : opening.kind = .leftBrace) (closed : closing.kind = .rightBrace)
    (orderly : Orderly room inner) :
    ∃ body reports, ∀ (s : State) rest, s.nesting = 0 → s.blocks = 0 →
      declaration limits (s.facing (opening :: (inner ++ closing :: rest))) =
        (some (.block body), { s with reports := reports ++ s.reports }.facing rest) := by
  obtain ⟨depth, deep⟩ : ∃ depth, limits.depth = depth + 1 := ⟨limits.depth - 1, by omega⟩
  have reads : ReadsBody limits depth ((standing (0 + 1) (0 + 1) closing).facing inner) :=
    readsBody_of_orderly limits orderly.usable (by omega)
      (show 0 + 1 + room ≤ limits.nesting by omega) (Nat.succ_ne_zero 0) closed
      (settled_facing _ _)
  obtain ⟨body, reports, ran⟩ := statement_of_readsBody opened closed (by omega) reads
  refine ⟨body, reports, fun s rest no_nesting no_blocks => ?_⟩
  unfold declaration recovered
  rw [deep, ran s rest no_nesting no_blocks]

private theorem separate_block {body : List Stmt} {reports : List Diagnostic}
    (opened : opening.kind = .leftBrace)
    (takes : ∀ (s : State) rest, s.nesting = 0 → s.blocks = 0 →
      declaration limits (s.facing (opening :: (inner ++ closing :: rest))) =
        (some (.block body), { s with reports := reports ++ s.reports }.facing rest)) :
    Separate limits (opening :: (inner ++ [closing])) [.block body] reports := by
  refine separate_of_declaration (some (.block body)) reports
    ⟨opening, List.mem_cons_self, by rw [opened]; decide⟩ fun s rest no_nesting no_blocks => ?_
  have shape : opening :: (inner ++ [closing]) ++ rest = opening :: (inner ++ closing :: rest) := by
    simp
  rw [shape]
  exact takes s rest no_nesting no_blocks

private theorem unended_block (opened : opening.kind = .leftBrace) (closed : closing.kind = .rightBrace)
    (unended : ∀ t ∈ inner, t.kind ≠ .eof) :
    ∀ t ∈ opening :: (inner ++ [closing]), t.kind ≠ .eof := by
  simp only [List.mem_cons, List.mem_append, List.not_mem_nil, or_false]
  rintro t (rfl | inside | rfl)
  · rw [opened]
    decide
  · exact unended t inside
  · rw [closed]
    decide

end Blocks

section Semicolon
variable {ts : List Token} {finish : Token}

private theorem advanced_beyond {s l : State} {stop : Token} {usable : stop.kind ≠ .error}
    {more : List Token} (used_up : l.rest = []) :
    ((beyond s stop usable more).place l).advanced =
      { s with
        reports := l.reports ++ s.reports
        nesting := l.nesting
        blocks := l.blocks }.facing more := by
  simp [advanced, place, used_up, beyond, facing]

private theorem starts_tail
    (led : ∀ t ∈ (ts.filter (·.kind != .error)).tail, t.kind.startsStatement = false) :
    ∀ t ∈ (ts.dropWhile isLexicalError).tail, t.kind.startsStatement = false := by
  induction ts with
  | nil => simp
  | cons u ts ih =>
    by_cases lexical : u.kind = .error
    · rw [List.dropWhile_cons_of_pos (by simpa [isLexicalError] using lexical)]
      refine ih ?_
      rwa [List.filter_cons_of_neg (by simpa using lexical)] at led
    · rw [List.dropWhile_cons_of_neg (by simpa [isLexicalError] using lexical)]
      rw [List.filter_cons_of_pos (by simpa using lexical)] at led
      intro t member
      by_cases error : t.kind = .error
      · rw [error]
        rfl
      · exact led t (List.mem_filter.2 ⟨member, bne_iff_ne.2 error⟩)

private theorem separate_semicolon (limits : Limits)
    (flat : ∀ t ∈ ts, t.kind ≠ .semicolon ∧ t.kind ≠ .leftBrace)
    (led : ∀ t ∈ (ts.filter (·.kind != .error)).tail, t.kind.startsStatement = false)
    (ended : finish.kind = .semicolon) :
    ∃ found reports, Separate limits (ts ++ [finish]) found reports := by
  have usable : finish.kind ≠ .error := by rw [ended]; decide
  let l := (standing 0 0 finish).facing ts
  have inside : ∀ t ∈ l.rest, t.kind ≠ .semicolon ∧ t.kind ≠ .leftBrace := fun t member =>
    flat t ((List.dropWhile_suffix isLexicalError).subset member)
  have used_up : (recoveredClause limits limits.depth l).2.rest = [] :=
    rest_recoveredClause limits limits.depth rfl (fun t member => (inside t member).1)
      (starts_tail led)
  have follows := law_follows.recoveredClause limits limits.depth l
  refine ⟨_, _, separate_of_declaration (recoveredClause limits limits.depth l).1
    (recoveredClause limits limits.depth l).2.reports
    ⟨finish, by simp, usable⟩ fun s rest no_nesting no_blocks => ?_⟩
  have shape : ts ++ [finish] ++ rest = ts ++ finish :: rest := by simp
  have stretch := facing_stretch s usable ts rest
  rw [no_nesting, no_blocks] at stretch
  rw [shape, stretch]
  have upcoming : (beyond s finish usable rest).tokens = finish :: rest := rfl
  refine (recovered_semicolon limits limits.depth inside upcoming ended rfl).trans (congrArg _ ?_)
  rw [leave, used_up, List.isEmpty_nil, if_pos rfl, advanced_beyond used_up, follows.nesting,
    follows.blocks]
  cases s
  cases no_nesting
  cases no_blocks
  rfl

end Semicolon

/-- Stretches of tokens that are read by themselves, whatever faults are in them. -/
inductive Segment (limits : Limits) : List Token → Prop where
  /-- What ends at its first semicolon, with no block before it and with no word that
  opens a statement behind its first usable token. -/
  | statement {ts : List Token} {finish : Token}
      (flat : ∀ t ∈ ts, t.kind ≠ .semicolon ∧ t.kind ≠ .leftBrace ∧ t.kind ≠ .eof)
      (led : ∀ t ∈ (ts.filter (·.kind != .error)).tail, t.kind.startsStatement = false)
      (ended : finish.kind = .semicolon) : Segment limits (ts ++ [finish])
  /-- What stands between two braces, the braces with it, and has no brace inside. -/
  | block {opening : Token} {inner : List Token} {closing : Token}
      (opened : opening.kind = .leftBrace) (closed : closing.kind = .rightBrace)
      (flat : ∀ t ∈ inner, t.kind ≠ .leftBrace ∧ t.kind ≠ .rightBrace ∧ t.kind ≠ .eof) :
      Segment limits (opening :: (inner ++ [closing]))
  /-- A program without faults. -/
  | valid {ts : List Token} {finish : Token} (unended : ∀ t ∈ ts, t.kind ≠ .eof)
      (ended : finish.kind = .eof) (valid : (program limits (ts ++ [finish])).isValid = true) :
      Segment limits ts

namespace Segment
variable {limits : Limits} {ts : List Token}

theorem unended (segment : Segment limits ts) : ∀ t ∈ ts, t.kind ≠ .eof := by
  cases segment with
  | statement flat led ended =>
    simp only [List.mem_append, List.mem_singleton]
    rintro t (inside | rfl)
    · exact (flat t inside).2.2
    · rw [ended]
      decide
  | block opened closed flat =>
    exact unended_block opened closed fun t member => (flat t member).2.2
  | valid unended _ _ => exact unended

theorem separate (nests : 0 < limits.nesting) (levels : 0 < limits.depth)
    (segment : Segment limits ts) : ∃ found reports, Separate limits ts found reports := by
  cases segment with
  | statement flat led ended =>
    exact separate_semicolon limits (fun t member => ⟨(flat t member).1, (flat t member).2.1⟩) led
      ended
  | block opened closed flat =>
    obtain ⟨body, reports, takes⟩ := declaration_block nests levels opened closed
      (.flat fun t member => ⟨(flat t member).1, (flat t member).2.1⟩)
    exact ⟨_, reports, separate_block opened takes⟩
  | valid unended ended valid =>
    exact ⟨_, [], separate_of_valid unended ended (eq_of_isValid valid)⟩

end Segment

/-- A parse falls apart behind such a stretch: it finds what it finds in the stretch
alone and then what it finds in the tokens that follow, and so it reports. -/
theorem program_segment_append {limits : Limits} {ts : List Token} {finish : Token}
    (nests : 0 < limits.nesting) (levels : 0 < limits.depth) (segment : Segment limits ts)
    (ended : finish.kind = .eof) (more : List Token) :
    program limits (ts ++ more) =
      ⟨(program limits (ts ++ [finish])).tree ++ (program limits more).tree,
        (program limits (ts ++ [finish])).diagnostics ++ (program limits more).diagnostics⟩ := by
  obtain ⟨found, reports, separate⟩ := segment.separate nests levels
  rw [separate.program_append segment.unended, separate.program_eq segment.unended ended]

/-- A statement with a fault before one without. -/
theorem program_segment_append_faulty :
    program .standard
        [.plain .printWord 1, .plain .plus 1, .plain .rightBrace 1, .plain .semicolon 1,
          .plain .nilWord 2, .plain .semicolon 2, .eof 2] =
      ⟨[.expression (.literal .nil)],
        [.atToken (.plain .plus 1) .missingLeftOperand,
          .atToken (.plain .rightBrace 1) .expectedExpression]⟩ := by
  have segment : Segment .standard
      ([.plain .printWord 1, .plain .plus 1, .plain .rightBrace 1] ++ [.plain .semicolon 1]) :=
    .statement (by decide) (by decide) rfl
  have ended : (Token.eof 1).kind = .eof := rfl
  refine (program_segment_append (by decide) (by decide) segment ended
    [.plain .nilWord 2, .plain .semicolon 2, .eof 2]).trans ?_
  decide +kernel

/-- A block whose inner blocks all stand where a statement may begin, or behind one that has
broken off, does not leak: whatever the faults inside, its last brace closes it, the parse goes on behind that
brace as if nothing had come before, and it falls apart there. -/
theorem program_block_append {limits : Limits} {room : Nat} {opening closing : Token}
    {inner : List Token} (nests : room < limits.nesting) (levels : room < limits.depth)
    (opened : opening.kind = .leftBrace) (closed : closing.kind = .rightBrace)
    (unended : ∀ t ∈ inner, t.kind ≠ .eof) (orderly : Orderly room inner) :
    ∃ body reports,
      (∀ finish : Token, finish.kind = .eof →
        program limits (opening :: (inner ++ [closing]) ++ [finish]) =
          ⟨[.block body], reports⟩) ∧
      ∀ more,
        program limits (opening :: (inner ++ [closing]) ++ more) =
          ⟨.block body :: (program limits more).tree,
            reports ++ (program limits more).diagnostics⟩ ∧
        (declaration limits (State.start (opening :: (inner ++ [closing]) ++ more))).1 =
          some (.block body) ∧
        (declaration limits (State.start (opening :: (inner ++ [closing]) ++ more))).2.rest =
          (State.start more).rest := by
  obtain ⟨body, reports, ran⟩ := declaration_block nests levels opened closed orderly
  have separate := separate_block opened ran
  have open_ := unended_block opened closed unended
  refine ⟨body, reports.reverse, fun finish ended => separate.program_eq open_ ended,
    fun more => ⟨separate.program_append open_ more, ?_⟩⟩
  have shape : opening :: (inner ++ [closing]) ++ more.takeWhile (·.kind != .eof) =
      opening :: (inner ++ closing :: more.takeWhile (·.kind != .eof)) := by
    simp
  rw [start_append open_, shape, ran _ _ rfl rfl, start_eq]
  exact ⟨rfl, rfl⟩

/-- Faults in a block and in a block inside it, which stands behind a semicolon. -/
theorem program_block_append_nested :
    ∃ body reports, ∀ more,
      program .standard
          ([.plain .leftBrace 1, .plain .printWord 1, .plain .semicolon 1, .plain .leftBrace 1,
            .plain .nilWord 1, .plain .rightBrace 1, .plain .rightBrace 1] ++ more) =
        ⟨.block body :: (program .standard more).tree,
          reports ++ (program .standard more).diagnostics⟩ := by
  have inside : Orderly 1 ([.plain .printWord 1] ++ .plain .semicolon 1 ::
      ([] ++ .plain .leftBrace 1 :: ([.plain .nilWord 1] ++ .plain .rightBrace 1 :: []))) :=
    .behind (by decide) rfl (.block (by decide) rfl (.flat (by decide)) rfl (.flat (by decide)))
  have nests : 1 < Limits.standard.nesting := by decide
  have levels : 1 < Limits.standard.depth := by decide
  have opened : (Token.plain .leftBrace 1).kind = .leftBrace := rfl
  have closed : (Token.plain .rightBrace 1).kind = .rightBrace := rfl
  obtain ⟨body, reports, -, apart⟩ :=
    program_block_append nests levels opened closed (by decide) inside
  exact ⟨body, reports, fun more => (apart more).1⟩

/-- A second expression where the first one should end, and a block behind it. -/
example :
    (program .standard
      [.plain .leftBrace 1, .plain .nilWord 1, .plain .trueWord 1, .plain .leftBrace 1,
        .plain .rightBrace 1, .plain .rightBrace 1, .plain .nilWord 1, .plain .semicolon 1,
        .eof 1]).tree = [.block [.block []], .expression (.literal .nil)] := by
  decide +kernel

/-- Lists of tokens whose braces match. -/
inductive Balanced : List Token → Prop
  | flat {ts} (plain : ∀ t ∈ ts, t.kind ≠ .leftBrace ∧ t.kind ≠ .rightBrace) : Balanced ts
  | block {ts opening inner closing more}
      (plain : ∀ t ∈ ts, t.kind ≠ .leftBrace ∧ t.kind ≠ .rightBrace)
      (opened : opening.kind = .leftBrace) (inside : Balanced inner)
      (closed : closing.kind = .rightBrace) (later : Balanced more) :
      Balanced (ts ++ opening :: (inner ++ closing :: more))

theorem Balanced.append {ts us : List Token}
    (plain : ∀ t ∈ ts, t.kind ≠ .leftBrace ∧ t.kind ≠ .rightBrace) (balanced : Balanced us) :
    Balanced (ts ++ us) := by
  cases balanced with
  | flat plain' =>
    exact .flat fun t member => (List.mem_append.1 member).elim (plain t) (plain' t)
  | block plain' opened inside closed later =>
    rw [← List.append_assoc]
    exact .block (fun t member => (List.mem_append.1 member).elim (plain t) (plain' t)) opened
      inside closed later

private theorem Orderly.balanced {room : Nat} {ts : List Token} (orderly : Orderly room ts) :
    Balanced ts := by
  induction orderly with
  | flat plain => exact .flat plain
  | @behind room ts finish more plain ended later ih =>
    have shape : ts ++ finish :: more = (ts ++ [finish]) ++ more := by simp
    rw [shape]
    refine ih.append fun t member => ?_
    rcases List.mem_append.1 member with inside | last
    · exact plain t inside
    · rw [List.mem_singleton.1 last, ended]
      decide
  | block lexical opened inside closed later ih ih' =>
    refine .block (fun t member => ?_) opened ih closed ih'
    rw [lexical t member]
    decide
  | @faulty room errors begun next passed opener more lexical breaks usable flat led opens later ih =>
    have shape : errors ++ (begun ++ next :: (passed ++ opener :: more)) =
        (errors ++ (begun ++ next :: passed)) ++ opener :: more := by simp
    rw [shape]
    refine ih.append fun t member => ?_
    rcases List.mem_append.1 member with error | inside
    · rw [lexical t error]
      decide
    · exact ⟨(flat t inside).1, (flat t inside).2.1⟩

/-- Braces that match are not enough. A block in the middle of a faulty statement
loses its first brace to the recovery, its second one then closes the outer block,
and the last brace of the outer block, left over, takes the next statement away. -/
theorem balanced_block_leaks :
    Balanced [.plain .nilWord 1, .plain .leftBrace 1, .plain .rightBrace 1] ∧
      (program .standard
        [.plain .leftBrace 1, .plain .nilWord 1, .plain .leftBrace 1, .plain .rightBrace 1,
          .plain .rightBrace 1, .plain .nilWord 1, .plain .semicolon 1, .eof 1]).tree =
        [.block []] ∧
      (program .standard
        [.plain .leftBrace 1, .plain .nilWord 1, .plain .leftBrace 1, .plain .rightBrace 1,
          .plain .rightBrace 1, .eof 1]).tree = [.block []] ∧
      (program .standard [.plain .nilWord 1, .plain .semicolon 1, .eof 1]).tree =
        [.expression (.literal .nil)] := by
  have balanced : Balanced ([.plain .nilWord 1] ++ .plain .leftBrace 1 ::
      ([] ++ .plain .rightBrace 1 :: [])) :=
    .block (by decide) rfl (.flat (by decide)) rfl (.flat (by decide))
  exact ⟨balanced, by decide +kernel, by decide +kernel, by decide +kernel⟩

end Scriptlet.Parse
