import Scriptlet.Proofs.Grammar.Lines
import Scriptlet.Proofs.Grammar.Single
import Scriptlet.Proofs.Program.Height
import Scriptlet.Proofs.Program.Source

/-! Printing undoes parsing, where it gives a text. The source form of the program in a text
has the tokens of that text, apart from lines and the spelling of numbers, and the parser sees
neither. So the source form is a valid program again, with the same tree apart from lines, and
its source form is itself. But parsing a chain of operators takes no depth, and its tree is as
high as the chain is long: a long sum is a valid program that no standard depth can print. -/
namespace Scriptlet

section Source
variable {f : Token → Token}

private theorem Expr.source_mapTokens (lexeme : ∀ t, (f t).lexeme = t.lexeme) (e : Expr) :
    (e.mapTokens f).source = e.source := by
  induction e with
  | literal | reference => simp only [Expr.mapTokens, Expr.source, lexeme]
  | grouping inner ih => simp only [Expr.mapTokens, Expr.source, ih]
  | unary operator right ih | assign operator right ih =>
    simp only [Expr.mapTokens, Expr.source, lexeme, ih]
  | binary left operator right leftIH rightIH | comma left operator right leftIH rightIH =>
    simp only [Expr.mapTokens, Expr.source, lexeme, leftIH, rightIH]
  | conditional condition onTrue onFalse ih trueIH falseIH =>
    simp only [Expr.mapTokens, Expr.source, ih, trueIH, falseIH]

mutual

private theorem Stmt.source_mapTokens (lexeme : ∀ t, (f t).lexeme = t.lexeme) :
    (statement : Stmt) → (statement.mapTokens f).source = statement.source
  | .expression value | .print value => by
    simp only [Stmt.mapTokens, Stmt.source, Expr.source_mapTokens lexeme]
  | .declare name none => by simp only [Stmt.mapTokens, Stmt.source, lexeme]
  | .declare name (some initializer) => by
    simp only [Stmt.mapTokens, Stmt.source, lexeme, Expr.source_mapTokens lexeme]
  | .block body => by
    simp only [Stmt.mapTokens, Stmt.source, Stmt.bodySource_mapBody lexeme body]

private theorem Stmt.bodySource_mapBody (lexeme : ∀ t, (f t).lexeme = t.lexeme) :
    (body : List Stmt) → Stmt.bodySource (Stmt.mapBody f body) = Stmt.bodySource body
  | [] => rfl
  | statement :: more => by
    simp only [Stmt.mapBody, Stmt.bodySource, Stmt.source_mapTokens lexeme statement,
      Stmt.bodySource_mapBody lexeme more]

end

private theorem Stmt.programSource_map (lexeme : ∀ t, (f t).lexeme = t.lexeme) (program : List Stmt) :
    Stmt.programSource (program.map (Stmt.mapTokens f)) = Stmt.programSource program := by
  unfold Stmt.programSource
  rw [List.map_map]
  congr 1
  exact List.map_congr_left fun statement _ => Stmt.source_mapTokens lexeme statement

end Source

namespace Grammar
open Parse Token

section Congruence
variable {f g : Token → Token}

private theorem mapTokens_folded (same : ∀ t, t.kind ≠ .number → f t = g t) {r operand : Rule}
    {isOperator : Kind → Bool} {build : Expr → Token → Expr → Expr}
    (level : Chained r operand isOperator build) {links : List Link}
    (operators : ∀ link ∈ links, isOperator link.operator.kind = true)
    (rights : ∀ link ∈ links, link.right.mapTokens f = link.right.mapTokens g) {first : Expr}
    (began : first.mapTokens f = first.mapTokens g) :
    (folded build first links).mapTokens f = (folded build first links).mapTokens g := by
  induction links generalizing first with
  | nil => exact began
  | cons link links ih =>
    refine ih (fun other among => operators other (.tail _ among))
      (fun other among => rights other (.tail _ among)) ?_
    have operator : f link.operator = g link.operator := by
      refine same _ fun number => ?_
      have sign := operators link (.head _)
      rw [number] at sign
      cases level <;> cases sign
    have right := rights link (.head _)
    cases level <;> simp only [Expr.mapTokens, began, operator, right]

private theorem mapTokens_congr (same : ∀ t, t.kind ≠ .number → f t = g t) {r : Rule} {ts : List Token}
    {e : Expr} (derived : Derives r ts e) : e.mapTokens f = e.mapTokens g := by
  induction derived with
  | expression _ ih | unassigned _ ih | unconditional _ ih | plain _ ih => exact ih
  | chain level _ operators _ ih links_ih => exact mapTokens_folded same level operators links_ih ih
  | assign _ _ _ ih value_ih =>
    have name := Expr.reference.inj ih
    simp only [Expr.mapTokens, name, value_ih]
  | conditional _ _ _ _ _ ih true_ih false_ih => simp only [Expr.mapTokens, ih, true_ih, false_ih]
  | unary sign _ ih =>
    have operator := same _ (by rcases sign with sign | sign <;> rw [sign] <;> decide)
    simp only [Expr.mapTokens, operator, ih]
  | constant | read => rfl
  | name sort => simp only [Expr.mapTokens, same _ (by rw [sort]; decide)]
  | grouping _ _ _ ih => simp only [Expr.mapTokens, ih]

mutual

private theorem mapTokens_congr_declares (same : ∀ t, t.kind ≠ .number → f t = g t) :
    {ts : List Token} → {made : Stmt} → Declares ts made → made.mapTokens f = made.mapTokens g
  | _, _, .bare _ sort _ => by simp only [Stmt.mapTokens, same _ (by rw [sort]; decide)]
  | _, _, .initialized _ sort _ source _ => by
    simp only [Stmt.mapTokens, same _ (by rw [sort]; decide), mapTokens_congr same source]
  | _, _, .print _ source _ | _, _, .expression source _ => by
    simp only [Stmt.mapTokens, mapTokens_congr same source]
  | _, _, .block _ inner _ => by simp only [Stmt.mapTokens, mapBody_congr same inner]

private theorem mapBody_congr (same : ∀ t, t.kind ≠ .number → f t = g t) :
    {ts : List Token} → {found : List Stmt} → Program ts found →
      Stmt.mapBody f found = Stmt.mapBody g found
  | _, _, .nil => rfl
  | _, _, .cons first more => by
    simp only [Stmt.mapBody, mapTokens_congr_declares same first, mapBody_congr same more]

end

end Congruence

def reprinted (limits : Limits) (source : String) : String :=
  Stmt.programSource (program limits (scan source)).tree

/-- Two tokens that say the same, numbers being spelled in any way. -/
structure SameSign (t u : Token) : Prop where
  kind : u.kind = t.kind
  literal : u.literal = t.literal
  lexeme : t.kind ≠ .number → u.lexeme = t.lexeme

private theorem sameSign_of_sense {t u : Token} (same : t.sense = u.sense) : SameSign t u := by
  have kind : t.sense.kind = u.sense.kind := congrArg _ same
  have literal : t.sense.literal = u.sense.literal := congrArg _ same
  have lexeme : t.sense.lexeme = u.sense.lexeme := congrArg _ same
  unfold sense at kind literal lexeme
  dsimp only at kind literal lexeme
  refine ⟨kind.symm, literal.symm, fun word => ?_⟩
  rw [if_neg word, if_neg (by rwa [← kind])] at lexeme
  exact lexeme.symm

private theorem sameSign_eof (a b : Int) : SameSign (eof a) (eof b) := ⟨rfl, rfl, fun _ => rfl⟩

private theorem renaming_fault : Renaming sense fun d d' => d.fault = d'.fault :=
  ⟨fun _ => rfl, fun _ => rfl, fun _ _ => rfl, fun _ => rfl⟩

private theorem program_essential (limits : Limits) (tokens : List Token) :
    (program limits ((tokens.takeWhile (·.kind != .eof)).map sense ++ [eof 1])).tree =
        (program limits tokens).tree.map (Stmt.mapTokens sense) ∧
      (program limits tokens).diagnostics.map (·.fault) =
        (program limits ((tokens.takeWhile (·.kind != .eof)).map sense ++ [eof 1])).diagnostics.map
          (·.fault) := by
  have ended : ((tokens.takeWhile (·.kind != .eof)).map sense ++ [eof 1]).takeWhile
      (·.kind != .eof) = (tokens.takeWhile (·.kind != .eof)).map sense := by
    refine takeWhile_finish (fun t member => ?_) rfl
    obtain ⟨u, among, rfl⟩ := List.mem_map.1 member
    show u.kind ≠ .eof
    exact ne_eof_of_takeWhile among
  obtain ⟨tree, faults⟩ := program_renamed renaming_fault limits ended fun _ => rfl
  refine ⟨tree, ?_⟩
  rwa [← List.forall₂_eq_eq_eq, List.forall₂_map_left_iff, List.forall₂_map_right_iff]

/-- Token lists that say the same make the same program and have the same faults. -/
theorem program_sense (limits : Limits) (tokens tokens' : List Token)
    (same : (tokens.takeWhile (·.kind != .eof)).map sense =
      (tokens'.takeWhile (·.kind != .eof)).map sense) :
    (program limits tokens).tree.map (Stmt.mapTokens sense) =
        (program limits tokens').tree.map (Stmt.mapTokens sense) ∧
      (program limits tokens).diagnostics.map (·.fault) =
        (program limits tokens').diagnostics.map (·.fault) := by
  obtain ⟨tree, faults⟩ := program_essential limits tokens
  obtain ⟨tree', faults'⟩ := program_essential limits tokens'
  rw [same] at tree faults
  exact ⟨tree.symm.trans tree', faults.trans faults'.symm⟩

variable {limits : Limits} {source : String}

theorem sense_programSource {ts : List Token} {found : List Stmt} (derived : Program ts found)
    (made : ∀ t ∈ ts, t.Made) :
    (spoken 1 (Piece.cut (Stmt.programSource found).toList)).map sense = ts.map sense := by
  obtain ⟨pieces, printed, separated, said⟩ := writes_program derived made
  have recut := Piece.cut_flatMap separated
  rw [List.append_nil, Piece.cut_nil, List.append_nil, ← printed] at recut
  rw [recut, sense_spoken, said]

private theorem sense_reprinted (valid : (program limits (scan source)).isValid = true) :
    (spoken 1 (Piece.cut (reprinted limits source).toList)).map sense =
      (spoken 1 (Piece.cut source.toList)).map sense := by
  have derived := (program_sound (eq_of_isValid valid)).1
  rw [takeWhile_scan] at derived
  exact sense_programSource derived fun t member => made_of_spoken member

private theorem isValid_of_sense {tokens : List Token} (tokens' : List Token) {found : List Stmt}
    (same : (tokens'.takeWhile (·.kind != .eof)).map sense =
      (tokens.takeWhile (·.kind != .eof)).map sense)
    (valid : program limits tokens = ⟨found, []⟩) :
    (program limits tokens').isValid = true ∧
      (program limits tokens').tree.map (Stmt.mapTokens sense) =
        found.map (Stmt.mapTokens sense) := by
  obtain ⟨tree, faults⟩ := program_sense limits tokens' tokens same
  rw [valid] at tree faults
  exact ⟨List.isEmpty_iff.2 (List.map_eq_nil_iff.1 faults), tree⟩

/-- On derived trees, forgetting all but the sense of a token forgets its line only. -/
theorem map_sense_of_derived {ts : List Token} {found : List Stmt} (derived : Program ts found) :
    found.map (Stmt.mapTokens sense) = found.map (Stmt.mapTokens (relined fun _ => 0)) := by
  have same : ∀ t : Token, t.kind ≠ .number → sense t = relined (fun _ => 0) t := by
    intro t word
    unfold sense relined
    rw [if_neg word]
  rw [← Stmt.mapBody_eq, ← Stmt.mapBody_eq]
  exact mapBody_congr same derived

theorem map_sense (valid : (program limits (scan source)).isValid = true) :
    (program limits (scan source)).tree.map (Stmt.mapTokens sense) =
      (program limits (scan source)).tree.map (Stmt.mapTokens (relined fun _ => 0)) :=
  map_sense_of_derived (program_sound (eq_of_isValid valid)).1

private theorem reparse_reprinted (limits : Limits) (source : String)
    (valid : (program limits (scan source)).isValid = true) :
    List.Forall₂ SameSign (scan source) (scan (reprinted limits source)) ∧
      (program limits (scan (reprinted limits source))).isValid = true ∧
      (program limits (scan (reprinted limits source))).tree.map
          (Stmt.mapTokens (relined fun _ => 0)) =
        (program limits (scan source)).tree.map (Stmt.mapTokens (relined fun _ => 0)) ∧
      reprinted limits (reprinted limits source) = reprinted limits source := by
  have said := sense_reprinted valid
  obtain ⟨again, trees⟩ := isValid_of_sense (scan (reprinted limits source))
    (by rw [takeWhile_scan, takeWhile_scan, said]) (eq_of_isValid valid)
  rw [map_sense again, map_sense valid] at trees
  refine ⟨?_, again, trees, ?_⟩
  · have signs := said.symm
    rw [← List.forall₂_eq_eq_eq, List.forall₂_map_left_iff, List.forall₂_map_right_iff] at signs
    rw [scan_eq, scan_eq]
    exact List.rel_append (signs.imp fun _ _ => sameSign_of_sense)
      (.cons (sameSign_eof _ _) .nil)
  · have printed := congrArg Stmt.programSource trees
    have kept : ∀ t : Token, (relined (fun _ => 0) t).lexeme = t.lexeme := fun _ => rfl
    rwa [Stmt.programSource_map kept, Stmt.programSource_map kept] at printed

private theorem bodyHeight_reprinted (valid : (program limits (scan source)).isValid = true) :
    Stmt.bodyHeight (program limits (scan (reprinted limits source))).tree =
      Stmt.bodyHeight (program limits (scan source)).tree := by
  obtain ⟨_, _, trees, _⟩ := reparse_reprinted limits source valid
  rw [← Stmt.mapBody_eq, ← Stmt.mapBody_eq] at trees
  have same := congrArg Stmt.bodyHeight trees
  rwa [Stmt.bodyHeight_mapBody, Stmt.bodyHeight_mapBody] at same

/-- A valid program is printed just where the depth admits its height. The text says what the
tokens of the source say, is valid, makes the same program again apart from lines, and is
printed again as it is. -/
theorem printed_reparses (limits : Limits) (depth : Depth) (source : String)
    (valid : (program limits (scan source)).isValid = true) :
    (Stmt.programSource? depth (program limits (scan source)).tree).isSome =
        depth.admits (Stmt.bodyHeight (program limits (scan source)).tree) ∧
      ∀ text, Stmt.programSource? depth (program limits (scan source)).tree = some text →
        List.Forall₂ SameSign (scan source) (scan text) ∧
        (program limits (scan text)).isValid = true ∧
        (program limits (scan text)).tree.map (Stmt.mapTokens (relined fun _ => 0)) =
          (program limits (scan source)).tree.map (Stmt.mapTokens (relined fun _ => 0)) ∧
        Stmt.programSource? depth (program limits (scan text)).tree = some text := by
  rw [Stmt.programSource?_eq]
  refine ⟨by split <;> simp [*], fun text printed => ?_⟩
  split at printed
  · rename_i fits
    obtain rfl : reprinted limits source = text := Option.some.inj printed
    obtain ⟨signs, again, trees, settled⟩ := reparse_reprinted limits source valid
    refine ⟨signs, again, trees, ?_⟩
    rw [Stmt.programSource?_eq, bodyHeight_reprinted valid, if_pos fits]
    exact congrArg some settled
  · cases printed

/-- Comments, a line break in a quoted text, a trailing zero and a nested block. -/
theorem printed_reparses_block :
    Stmt.programSource? .standard
        (program .standard (scan "\x7b var a=1.50;/* b */print a?-!a:(a=\"c\n\",2); \x7d")).tree =
      some "\x7b var a = 1.5; print a ? -!a : (a = \"c\n\", 2); \x7d" ∧
    Stmt.programSource? .standard
        (program .standard
          (scan "\x7b var a = 1.5; print a ? -!a : (a = \"c\n\", 2); \x7d")).tree =
      some "\x7b var a = 1.5; print a ? -!a : (a = \"c\n\", 2); \x7d" := by
  have printed : Stmt.programSource? .standard
      (program .standard (scan "\x7b var a=1.50;/* b */print a?-!a:(a=\"c\n\",2); \x7d")).tree =
        some "\x7b var a = 1.5; print a ? -!a : (a = \"c\n\", 2); \x7d" := by decide +kernel
  have whole := (printed_reparses .standard .standard
    "\x7b var a=1.50;/* b */print a?-!a:(a=\"c\n\",2); \x7d" (by decide +kernel)).2 _ printed
  exact ⟨printed, whole.2.2.2⟩

section Sum

private def one : Token := ⟨.number, "1", 1, .number (.ofNumeral ['1'] [])⟩

private def plusOne : Link := ⟨.plain .plus 1, [one], .literal one.literal⟩

private def sum (terms : Nat) : Expr :=
  folded .binary (.literal one.literal) (List.replicate terms plusOne)

private def sumTokens (terms : Nat) : List Token :=
  one :: (List.replicate terms plusOne).flatMap Link.yield

private theorem mem_sumTokens {terms : Nat} {t : Token} (member : t ∈ sumTokens terms) :
    t = one ∨ t = .plain .plus 1 := by
  rcases List.mem_cons.1 member with first | later
  · exact .inl first
  · obtain ⟨link, among, here⟩ := List.mem_flatMap.1 later
    rw [List.eq_of_mem_replicate among] at here
    simp only [plusOne, Link.yield, List.mem_cons, List.not_mem_nil, or_false] at here
    exact here.symm

private theorem ne_eof_sumTokens {terms : Nat} : ∀ t ∈ sumTokens terms, t.kind ≠ .eof := by
  intro t member
  rcases mem_sumTokens member with rfl | rfl <;> decide

private theorem made_sumTokens {terms : Nat} : ∀ t ∈ sumTokens terms, t.Made := by
  intro t member
  rcases mem_sumTokens member with rfl | rfl
  · have digits : (Piece.numeral ['1'] []).WellFormed :=
      ⟨List.cons_ne_nil _ _, List.forall_mem_singleton.2 rfl, List.forall_mem_nil _⟩
    exact ⟨.numeral ['1'] [], digits, rfl, rfl⟩
  · exact ⟨.mark .plus, rfl, rfl, rfl⟩

variable {limit depth : Nat} {s s' : State} {rest : List Token} {e : Expr}

/-- A rule other than the tightest passes on what the next one has read, at a token that does
not go on with it. -/
private theorem rule_closed {r : Rule} (within : 2 ≤ rank r ∧ rank r ≤ 8) (closes : Closes r rest)
    (ran : rule limit depth (tighter r) s = .ok e (s'.facing rest)) :
    rule limit (depth + 1) r s = .ok e (s'.facing rest) := by
  have chained {operand : Rule} {isOperator : Kind → Bool} {build : Expr → Token → Expr → Expr}
      (level : Chained r operand isOperator build)
      (ran : rule limit depth operand s = .ok e (s'.facing rest)) :
      rule limit (depth + 1) r s = .ok e (s'.facing rest) := by
    rw [level.rule_eq]
    refine (bind_of_ok ran).trans ?_
    change extend _ isOperator build (s'.facing rest).rest e (s'.facing rest) = _
    cases (s'.facing rest).rest with
    | nil => rfl
    | cons t bound => exact bind_of_ok (accept?_refused (level.refuses closes))
  cases r with
  | comma => exact chained .comma ran
  | equality => exact chained .equality ran
  | comparison => exact chained .comparison ran
  | term => exact chained .term ran
  | factor => exact chained .factor ran
  | ternary =>
    have question : joins? .question = some .ternary := rfl
    exact (bind_of_ok ran).trans (bind_of_ok (accept?_refused fun t next =>
      refuses_of_closes question closes next))
  | assignment =>
    have equal : joins? .equal = some .assignment := rfl
    exact (bind_of_ok ran).trans (bind_of_ok (accept?_refused fun t next =>
      refuses_of_closes equal closes next))
  | expression | unary | primary => exact absurd within (by decide)

private theorem rule_one (closes : Closes .factor rest) (s : State) :
    rule limit (depth + 3) .factor (s.facing (one :: rest)) =
      .ok (.literal one.literal) (s.facing rest) := by
  have usable : one.kind ≠ .error := by decide
  have opens : opening? one = some (.constant one.literal) := rfl
  have primary : rule limit (depth + 1) .primary (s.facing (one :: rest)) =
      .ok (.literal one.literal) (s.facing rest) :=
    bind_of_ok (takeAt?_facing usable opens s closes.clear)
  have unsigned : ifKind isUnaryOperator one = none := rfl
  exact rule_closed (by decide) closes
    ((bind_of_ok (takeAt?_refused (forall_upcoming usable unsigned rest))).trans primary)

private theorem extend_sum (closes : Closes .term rest) (terms : Nat) (bound : List Token)
    (long : terms ≤ bound.length) (left : Expr) (s : State) :
    extend (rule limit (depth + 3) .factor) (oneOf [.minus, .plus]) .binary bound left
        (s.facing ((List.replicate terms plusOne).flatMap Link.yield ++ rest)) =
      .ok (folded .binary left (List.replicate terms plusOne)) (s.facing rest) := by
  induction terms generalizing bound left with
  | zero =>
    cases bound with
    | nil => rfl
    | cons t bound => exact bind_of_ok (accept?_refused (Chained.term.refuses closes))
  | succ terms ih =>
    obtain _ | ⟨t, bound⟩ := bound
    · cases long
    · have later : Closes .factor ((List.replicate terms plusOne).flatMap Link.yield ++ rest) :=
        Chained.term.closes_links (fun link member => by rw [List.eq_of_mem_replicate member]; rfl)
          closes
      exact (bind_of_ok (accept?_facing (by decide) rfl s _)).trans
        ((bind_of_ok (rule_one later s)).trans (ih bound (Nat.le_of_succ_le_succ long) _))

private theorem rule_sum (closes : Closes .expression rest) (room : s.nesting + 1 ≤ limit)
    (terms : Nat) :
    rule limit (depth + 10) .expression (s.facing (sumTokens terms ++ rest)) =
      .ok (sum terms) (s.facing rest) := by
  have signs : ∀ link ∈ List.replicate terms plusOne, oneOf [.minus, .plus] link.operator.kind = true :=
    fun link member => by rw [List.eq_of_mem_replicate member]; rfl
  have inner {r : Rule} (below : rank r ≤ 9) : Closes r rest := closes.tighter below
  have term : rule limit (depth + 4) .term (s.deeper.facing (sumTokens terms ++ rest)) =
      .ok (sum terms) (s.deeper.facing rest) := by
    have long := length_links Chained.term signs s.deeper rest
    rw [List.length_replicate] at long
    rw [Chained.term.rule_eq]
    exact (bind_of_ok (rule_one (Chained.term.closes_links signs (inner (by decide))) _)).trans
      (extend_sum (inner (by decide)) terms _ long _ _)
  have equality := rule_closed (r := .equality) (by decide) (inner (by decide))
    (rule_closed (r := .comparison) (by decide) (inner (by decide)) term)
  have assignment := rule_closed (r := .assignment) (by decide) (inner (by decide))
    (rule_closed (r := .ternary) (by decide) (inner (by decide)) equality)
  exact nested_ok (s := s.facing (sumTokens terms ++ rest)) room
    (rule_closed (r := .comma) (by decide) (inner (by decide)) assignment)

/-- A sum of any length is parsed at a depth of eleven. -/
private theorem program_sum (deep : limits.depth = depth + 11) (room : 1 ≤ limits.nesting) (terms : Nat) :
    program limits (sumTokens terms ++ [.plain .semicolon 1, .eof 1]) =
      ⟨[.expression (sum terms)], []⟩ := by
  have semicolon : Closes .expression [.plain .semicolon 1] :=
    closes_cons rfl (by decide) (by decide) []
  have unled : Unled (sumTokens terms ++ [.plain .semicolon 1]) := by
    have plain : leader? one = none := rfl
    exact forall_upcoming (by decide) plain _
  exact Lead.alone.program_of_rule ne_eof_sumTokens rfl rfl deep unled (rule_sum semicolon room terms)

def sumText (terms : Nat) : String := "1" ++ String.join (List.replicate terms " + 1") ++ ";"

private theorem programSource_sum (terms : Nat) :
    Stmt.programSource [.expression (sum terms)] = sumText terms := by
  have written : one.literal.spelled = "1" := by decide +kernel
  have chain (left : Expr) : (folded .binary left (List.replicate terms plusOne)).source =
      left.source ++ String.join (List.replicate terms " + 1") := by
    induction terms generalizing left with
    | zero => simp [folded]
    | succ terms ih =>
      have more := ih (.binary left plusOne.operator plusOne.right)
      simp only [List.replicate_succ, String.join_cons]
      refine more.trans ?_
      simp only [Expr.source, plusOne, written, String.append_assoc]
      rfl
  simp [Stmt.programSource, Stmt.source, sum, sumText, chain, Expr.source, written]

private theorem height_sum (terms : Nat) : (sum terms).height = terms + 1 := by
  have chain (left : Expr) (high : 1 ≤ left.height) :
      (folded .binary left (List.replicate terms plusOne)).height = left.height + terms := by
    induction terms generalizing left with
    | zero => rfl
    | succ terms ih =>
      have more := ih (.binary left plusOne.operator plusOne.right) (Nat.le_add_left 1 _)
      refine more.trans ?_
      simp only [Expr.height, plusOne]
      omega
  exact (chain (.literal one.literal) (Nat.le_refl 1)).trans (Nat.add_comm 1 terms)

private theorem scan_sumText (deep : limits.depth = depth + 11) (room : 1 ≤ limits.nesting)
    (terms : Nat) :
    (program limits (scan (sumText terms))).isValid = true ∧
      Stmt.bodyHeight (program limits (scan (sumText terms))).tree = terms + 1 := by
  have valid := program_sum deep room terms
  have derived := (program_sound valid).1
  have semicolon : (plain .semicolon 1).kind = .semicolon := rfl
  have whole : (sumTokens terms ++ [plain .semicolon 1, eof 1]).takeWhile (·.kind != .eof) =
      sumTokens terms ++ [plain .semicolon 1] :=
    Lead.alone.takeWhile_eq ne_eof_sumTokens semicolon rfl
  rw [whole] at derived
  have made : (plain .semicolon 1).Made := ⟨.mark .semicolon, rfl, rfl, rfl⟩
  have said := sense_programSource derived
    (List.forall_mem_append.2 ⟨made_sumTokens, List.forall_mem_singleton.2 made⟩)
  rw [programSource_sum] at said
  obtain ⟨again, trees⟩ := isValid_of_sense (scan (sumText terms))
    (by rw [takeWhile_scan, whole, said]) valid
  refine ⟨again, ?_⟩
  rw [← Stmt.mapBody_eq, ← Stmt.mapBody_eq] at trees
  have same := congrArg Stmt.bodyHeight trees
  rw [Stmt.bodyHeight_mapBody, Stmt.bodyHeight_mapBody] at same
  rw [same]
  exact (Nat.max_zero _).trans (height_sum terms)

end Sum

/-- A sum of 1200 ones is a valid program, and the printer has no text for it. -/
theorem long_sum_unprinted :
    let source := "1" ++ String.join (List.replicate 1199 " + 1") ++ ";"
    (program .standard (scan source)).isValid = true ∧
      Stmt.programSource? .standard (program .standard (scan source)).tree = none := by
  intro source
  obtain ⟨valid, height⟩ : (program .standard (scan source)).isValid = true ∧
      Stmt.bodyHeight (program .standard (scan source)).tree = 1199 + 1 :=
    scan_sumText rfl (by decide) 1199
  refine ⟨valid, ?_⟩
  rw [Stmt.programSource?_eq, height]
  rfl

end Grammar

end Scriptlet
