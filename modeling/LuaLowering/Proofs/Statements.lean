import LuaLowering.Proofs.PrefixExpressions
/-!
# Reading statements back

Each kind of statement is read back from its tokens if the expressions and blocks inside it are. In front of it the
grammar tries other statements; where the first word does not tell them apart (`for`, `local`, and an assignment from a
call), the tokens behind it do.
-/
namespace LuaLowering.Syntax
open Peg Peg.Pattern Lexeme

/-! ## Names -/

theorem matches_names {names : List String} (some_name : names ≠ []) (identifiers : ∀ n ∈ names, isIdentifier n = true)
    {more : List String} (fails : Fails (.seq (.text ",") (.rule .name)) more) :
    Matches (.rule .names) (separated "," (names.map ([·]))) more
      (One fun t => ∃ range ts, t = .phrase .names range ts ∧ namesOf ts = .ok names) := by
  cases names with
  | nil => exact absurd rfl some_name
  | cons n names =>
    have each (m : String) (member : m ∈ n :: names) (rest : List String) (_ : True) :=
      matches_name (identifiers m member) rest
    have between (rest : List String) : Matches (.text ",") [","] rest (· = []) := .text (by decide)
    refine Matches.phrase (r := .names) rfl
      (Matches.sepBy (by decide) between each (fun _ => trivial) trivial fails) ?_
    exact fun range ts rows => ⟨range, ts, rfl, mapM_rows rows⟩

theorem matches_endWord (more : List String) :
    Matches (.rule .endWord) ["end"] more (One fun t => ∃ start, t = .token .endWord start "end".toList) :=
  matches_constant "end" rfl (by decide) (by decide) (by rfl) more

/-! ## Blocks -/

/-- What may follow a block. -/
def BlockEnds (tokens : List String) : Prop := tokens = [] ∨ StartsWith ["end", "else", "elseif", "until"] tokens

def Block.Reads (b : Block) : Prop := ∀ more, BlockEnds more →
  Matches (.rule .block) b.tokens more (One fun t => Gives Block.erase (blockOf t) b)

def Stat.Reads (s : Stat) : Prop := ∀ more,
  Matches Grammar.stat s.tokens (";" :: more) (One fun t => Gives Stat.erase (statOf t) s)

def Ret.Reads (r : Ret) : Prop := ∀ more,
  Matches (.rule .retStat) r.tokens more
    (One fun t => ∃ range ts, t = .phrase .retStat range ts ∧ Gives expsErase (retValuesOf ts) r.values)

theorem Fails.of_blockEnds {tokens : List String} {p : Pattern Rule} (ends : BlockEnds tokens)
    (nothing : (Shape.token []).rejects p = true)
    (rejects : ["end", "else", "elseif", "until"].all (fun t => (Shape.token t.toList).rejects p) = true) :
    Fails p tokens := by
  rcases ends with rfl | starts
  · exact .of_shape opens_nothing nothing
  · exact .of_first starts rejects

theorem Ret.reads {values : List Exp} (each : ∀ e ∈ values, e.Reads) (range : Option TextRange) :
    (Ret.mk values range).Reads := by
  intro more
  have close := matches_constant (r := .semicolon) ";" rfl (by decide) (by decide) (by rfl) more
  cases values with
  | nil =>
    have noValue : Fails (.rule .exps) ([";"] ++ more) := .of_shape (opens_token ";" more) (by rfl)
    refine Matches.phrase (r := .retStat) rfl (.text_seq (by decide) (.seq_of_nil (.opt_nil noValue) close.opt)) ?_
    rintro range' ts ⟨t, rfl, start, rfl⟩
    refine ⟨range', _, rfl, ?_⟩
    rw [retValuesOf]
    · exact .ok rfl
    · simp
  | cons e es =>
    have ends : StartsWith [";", ")", "do"] ([";"] ++ more) := ⟨";", more, rfl, by decide⟩
    refine Matches.phrase (r := .retStat) rfl
      (.text_seq (by decide) ((matches_exps (by simp) each ends).opt.seq close.opt)) ?_
    rintro range' ts ⟨us, vs, rfl, ⟨t, rfl, range'', es', rfl, given⟩, -⟩
    refine ⟨range', _, rfl, ?_⟩
    exact given

/-- A statement and the semicolon behind it. -/
def IsStat (s : Stat) (ts : List (ParseTree Rule)) : Prop :=
  ∃ t start text, ts = [t, .token .semicolon start text] ∧ Gives Stat.erase (statOf t) s

/-- The statements and the return statement of a block, without ranges. -/
def blockParts (parts : List Stat × Option Ret) : List Stat × Option Ret := (statsErase parts.1, parts.2.map Ret.erase)

theorem statsOf_rows {stats : List Stat} {ret : Option Ret} {ts us : List (ParseTree Rule)}
    (rows : Rows IsStat stats ts) (last : Gives blockParts (statsOf us) ([], ret)) :
    Gives blockParts (statsOf (ts ++ us)) (stats, ret) := by
  induction rows with
  | nil => exact last
  | cons first _ ih =>
    obtain ⟨t, start, text, rfl, given⟩ := first
    rw [List.append_assoc, List.cons_append, statsOf]
    · refine given.bind fun s same => ?_
      refine ih.bind fun parts same' => .ok ?_
      simp only [blockParts, Prod.mk.injEq] at same' ⊢
      simp [same, same']
    · rintro start text rfl
      obtain ⟨x, made, -⟩ := given
      cases made
    · simp

theorem matches_semicolon (more : List String) :
    Matches Grammar.stat [";"] more (One fun t => ∃ start, t = .token .semicolon start ";".toList) :=
  .first (matches_constant ";" rfl (by decide) (by decide) (by rfl) more)

theorem rounds_stats {stats : List Stat} (each : ∀ s ∈ stats, s.Reads) {more : List String}
    (fails : Fails Grammar.stat more) : Rounds Grammar.stat (statsTokens stats) more (Rows IsStat stats) := by
  induction stats with
  | nil =>
    rw [statsTokens]
    refine (Rounds.done fails).post ?_
    rintro ts rfl
    exact .nil
  | cons s stats ih =>
    have further := ih fun other member => each other (List.mem_cons_of_mem _ member)
    have rest := Rounds.step (by decide) (matches_semicolon _) further
    rw [statsTokens]
    refine (Rounds.step (by decide) (each s List.mem_cons_self _) rest).post ?_
    rintro ts ⟨us, vs, rfl, ⟨t, rfl, given⟩, ws, xs, rfl, ⟨u, rfl, start, rfl⟩, rows⟩
    show Rows IsStat (s :: stats) ([t, .token .semicolon start ";".toList] ++ xs)
    exact .cons ⟨t, start, _, rfl, given⟩ rows

theorem matches_stats {stats : List Stat} (each : ∀ s ∈ stats, s.Reads) {more : List String}
    (fails : Fails Grammar.stat more) : Matches (.star Grammar.stat) (statsTokens stats) more (Rows IsStat stats) := by
  cases stats with
  | nil =>
    rw [statsTokens]
    refine (Matches.star_nil fails).post ?_
    rintro ts rfl
    exact .nil
  | cons s stats =>
    have further := rounds_stats (fun other member => each other (List.mem_cons_of_mem _ member)) fails
    have rest := Rounds.step (by decide) (matches_semicolon _) further
    rw [statsTokens]
    refine (Matches.star (each s List.mem_cons_self _) rest).post ?_
    rintro ts ⟨us, vs, rfl, ⟨t, rfl, given⟩, ws, xs, rfl, ⟨u, rfl, start, rfl⟩, rows⟩
    show Rows IsStat (s :: stats) ([t, .token .semicolon start ";".toList] ++ xs)
    exact .cons ⟨t, start, _, rfl, given⟩ rows

theorem Block.reads {stats : List Stat} (each : ∀ s ∈ stats, s.Reads) (range : Option TextRange) :
    (Block.mk stats none range).Reads := by
  intro more ends
  have noStat : Fails Grammar.stat more := .of_blockEnds ends (by rfl) (by rfl)
  have noRet : Fails (.rule .retStat) more := .of_blockEnds ends (by rfl) (by rfl)
  refine Matches.phrase (r := .block) rfl ((matches_stats each noStat).seq_nil (.opt_nil noRet)) ?_
  intro range' ts rows
  have last : Gives blockParts (statsOf []) ([], none) := by
    exact .ok rfl
  have parts := statsOf_rows rows last
  rw [List.append_nil] at parts
  refine parts.bind fun (ss, ret) same => .ok ?_
  cases ret with
  | none =>
    simp only [blockParts, Prod.mk.injEq] at same
    simp [same]
  | some ret => cases congrArg Prod.snd same

theorem Block.reads_ret {stats : List Stat} {ret : Ret} (each : ∀ s ∈ stats, s.Reads) (last : ret.Reads)
    (range : Option TextRange) : (Block.mk stats (some ret) range).Reads := by
  intro more _
  obtain ⟨values, range₀⟩ := ret
  have noStat : Fails Grammar.stat ((Ret.mk values range₀).tokens ++ more) :=
    .of_shape (opens_token "return" _) (by rfl)
  refine Matches.phrase (r := .block) rfl ((matches_stats each noStat).seq (last more).opt) ?_
  rintro range' ts ⟨us, vs, rfl, rows, t, rfl, range'', ws, rfl, given⟩
  have end_ : Gives blockParts (statsOf [.phrase .retStat range'' ws]) ([], some ⟨values, range₀⟩) := by
    exact given.bind fun values' same => .ok (by simp [blockParts, same])
  refine (statsOf_rows rows end_).bind fun (ss, found) same => .ok ?_
  cases found with
  | none => cases congrArg Prod.snd same
  | some found =>
    simp only [blockParts, Prod.mk.injEq, Option.map_some, Option.some.injEq] at same
    simp [same]

/-! ## Functions -/

def FuncBody.Reads (b : FuncBody) : Prop := ∀ more,
  Matches (.rule .funcBody) b.tokens more (One fun t => Gives FuncBody.erase (funcBodyOf t) b)

theorem matches_params {params : List String} {isVararg : Bool} (identifiers : ∀ n ∈ params, isIdentifier n = true)
    (listed : params ≠ [] ∨ isVararg = true) {more : List String} :
    Matches (.rule .params) (paramTokens params isVararg) (")" :: more)
      (One fun t => ∃ range ts, t = .phrase .params range ts ∧ paramsOf ts = .ok (params, isVararg)) := by
  have ellipsis (rest : List String) := matches_constant (r := .varArgs) "..." rfl (by decide) (by decide)
    (by rfl) rest
  cases params with
  | nil =>
    obtain rfl := listed.resolve_left (by simp)
    have noName : Fails (.seq (.rule .names) (.opt (.seq (.text ",") (.rule .varArgs)))) (["..."] ++ ")" :: more) :=
      .of_shape (opens_token "..." _) (by rfl)
    refine Matches.phrase (r := .params) rfl (.second noName (ellipsis _)) ?_
    rintro range ts ⟨t, rfl, start, rfl⟩
    exact ⟨range, _, rfl, rfl⟩
  | cons n names =>
    cases isVararg with
    | false =>
      have noMore : Fails (.seq (.text ",") (.rule .name)) (")" :: more) :=
        .of_shape (opens_token ")" more) (by rfl)
      have noRest : Fails (.seq (.text ",") (.rule .varArgs)) (")" :: more) :=
        .of_shape (opens_token ")" more) (by rfl)
      rw [paramTokens, if_neg (by decide), List.append_nil]
      refine Matches.phrase (r := .params) rfl
        (.first ((matches_names (by simp) identifiers noMore).seq_nil (.opt_nil noRest))) ?_
      rintro range ts ⟨t, rfl, range', ns, rfl, named⟩
      exact ⟨range, _, rfl, by rw [paramsOf, named]; rfl⟩
    | true =>
      have noMore : Fails (.seq (.text ",") (.rule .name)) ([",", "..."] ++ ")" :: more) :=
        .text_seq (by decide) (.of_shape (opens_token "..." _) (by rfl))
      have split : paramTokens (n :: names) true = separated "," ((n :: names).map ([·])) ++ [",", "..."] := by
        simp [paramTokens, separated]
      rw [split]
      refine Matches.phrase (r := .params) rfl
        (.first ((matches_names (by simp) identifiers noMore).seq (.opt (.text_seq (by decide) (ellipsis _))))) ?_
      rintro range ts ⟨us, vs, rfl, ⟨t, rfl, range', ns, rfl, named⟩, u, rfl, start, rfl⟩
      exact ⟨range, _, rfl, by rw [List.singleton_append, paramsOf, named]; rfl⟩

theorem FuncBody.reads {params : List String} {isVararg : Bool} {body : Block}
    (identifiers : ∀ n ∈ params, isIdentifier n = true) (inner : body.Reads) :
    (FuncBody.mk params isVararg body).Reads := by
  intro more
  have ends : BlockEnds (["end"] ++ more) := .inr ⟨"end", more, rfl, by decide⟩
  have rest := (inner _ ends).seq (matches_endWord more)
  by_cases listed : params ≠ [] ∨ isVararg = true
  · refine Matches.phrase (r := .funcBody) rfl (.text_seq (by decide)
      ((matches_params identifiers listed).opt.seq (.text_seq (by decide) rest))) ?_
    rintro range ts ⟨us, vs, rfl, ⟨t, rfl, range', ps, rfl, named⟩, ws, xs, rfl, ⟨b, rfl, given⟩, c, rfl, -⟩
    exact .bind_ok named (given.bind fun x same => .ok (by simp [same]))
  · simp only [ne_eq, not_or, not_not, Bool.not_eq_true] at listed
    obtain ⟨rfl, rfl⟩ := listed
    have noParams : Fails (.rule .params) (")" :: (body.tokens ++ ["end"]) ++ more) :=
      .of_shape (opens_token ")" _) (by rfl)
    refine Matches.phrase (r := .funcBody) rfl (.text_seq (by decide)
      (.seq_of_nil (.opt_nil noParams) (.text_seq (by decide) rest))) ?_
    rintro range ts ⟨us, vs, rfl, ⟨b, rfl, given⟩, c, rfl, -⟩
    exact given.bind fun x same => .ok (by simp [same])

/-! ## Assignments and calls -/

namespace Stat

theorem varsTokens_eq (vars : List Var) : varsTokens vars = vars.map Var.tokens := by
  induction vars with
  | nil => rw [varsTokens]; rfl
  | cons v vars ih => rw [varsTokens, ih]; rfl

theorem varsOf_rows {vars : List Var} {ts : List (ParseTree Rule)}
    (rows : Rows (fun v => One fun t => ∃ range ts, t = .phrase .var range ts ∧
      Gives Var.erase (varOf range ts) v) vars ts) : Gives varsErase (varsOf ts) vars := by
  induction rows with
  | nil => exact ⟨[], by rw [varsOf], rfl⟩
  | cons first _ ih =>
    obtain ⟨t, rfl, range, us, rfl, given⟩ := first
    exact given.bind fun x same => ih.bind fun xs same' => .ok (by simp [same, same'])

theorem matches_vars {vars : List Var} (some_var : vars ≠ []) (each : ∀ v ∈ vars, v.Reads) (more : List String) :
    Matches (.rule .vars) (separated "," (varsTokens vars)) ("=" :: more)
      (One fun t => ∃ range ts, t = .phrase .vars range ts ∧ Gives varsErase (varsOf ts) vars) := by
  cases vars with
  | nil => exact absurd rfl some_var
  | cons v vars =>
    have one (w : Var) (member : w ∈ v :: vars) (rest : List String) (ends : StartsWith varEnds rest) :=
      (each w member).read rest (.of_first ends (by rfl))
    have ends : StartsWith varEnds ("=" :: more) := ⟨"=", more, rfl, by decide⟩
    rw [varsTokens_eq]
    refine Matches.phrase (r := .vars) rfl (Matches.sepBy (by decide) (fun rest => Matches.text (by decide)) one
      (fun rest => ⟨",", rest, rfl, by decide⟩) ends (.of_shape (opens_token "=" more) (by rfl))) ?_
    exact fun range ts rows => ⟨range, ts, rfl, varsOf_rows rows⟩

theorem reads_assign {targets : List Var} {values : List Exp} (some_var : targets ≠ []) (some_exp : values ≠ [])
    (vars : ∀ v ∈ targets, v.Reads) (exps : ∀ e ∈ values, e.Reads) (range : Option TextRange) :
    Stat.Reads ⟨.assign targets values, range⟩ := by
  intro more
  have ends : StartsWith [";", ")", "do"] (";" :: more) := ⟨";", more, rfl, by decide⟩
  have opening : Opening ((Stat.mk (.assign targets values) range).tokens ++ ";" :: more) := by
    cases targets with
    | nil => exact absurd rfl some_var
    | cons v targets =>
      rw [tokens, StatKind.tokens, varsTokens, separated]
      simp only [List.append_assoc]
      exact (vars v List.mem_cons_self).opening _
  have inner := (matches_vars some_var vars _).seq (.text_seq (by decide) (matches_exps some_exp exps ends))
  refine .pick_of_opening [] opening (by simp) (by rfl) (by rfl)
    (Matches.phrase (r := .assignStat) rfl inner ?_)
  rintro range' ts ⟨us, vs, rfl, ⟨t, rfl, range₁, ws, rfl, first⟩, u, rfl, range₂, xs, rfl, second⟩
  exact first.bind fun x same => second.bind fun y same' => .ok (by simp [same, same'])

theorem reads_call {h : Head} {calls : List Call} (some_call : calls ≠ []) (head : h.Reads)
    (each : ∀ c ∈ calls, c.Reads) (range : Option TextRange) : Stat.Reads ⟨.call ⟨h, calls⟩, range⟩ := by
  intro more
  have ends : StartsWith varEnds (";" :: more) := ⟨";", more, rfl, by decide⟩
  have noSuffix := fails_suffix each ends
  have noCall : Fails (.rule .call) (";" :: more) := .of_first ends (by rfl)
  have notAssigned := head.notAssigned _ noSuffix (continues_calls some_call each _)
  have plus : Matches (Pattern.plus (.rule .call)) (callsTokens calls).flatten (";" :: more)
      (Rows (fun c => One fun t => Gives Call.erase (callOf t) c) calls) := by
    cases calls with
    | nil => exact absurd rfl some_call
    | cons c calls =>
      rw [callsTokens, List.flatten_cons]
      have further := matches_calls (fun other member => each other (List.mem_cons_of_mem _ member)) noCall
      refine (((each c List.mem_cons_self).read _).seq further).post ?_
      rintro ts ⟨us, vs, rfl, first, rest⟩
      exact .cons first rest
  have whole : (Stat.mk (.call ⟨h, calls⟩) range).tokens ++ ";" :: more =
      h.tokens ++ ((callsTokens calls).flatten ++ ";" :: more) := by
    rw [tokens, StatKind.tokens, PrefixExp.tokens, List.append_assoc]
  refine .pick_of_opening [.assignStat] (whole ▸ head.opening _) ?_ (by rfl) (by rfl)
    (Matches.phrase (r := .callStat) rfl ((head.read _ noSuffix).seq plus) ?_)
  · intro other member
    obtain rfl := List.mem_singleton.mp member
    rw [whole]
    exact notAssigned
  · rintro range' ts ⟨us, vs, rfl, ⟨t, rfl, given⟩, rows⟩
    exact (prefixExpOf_rows given rows range').bind fun x same => .ok (by simp [same])

/-! ## Labels and jumps -/

theorem reads_label {n : String} (identifier : isIdentifier n = true) (range : Option TextRange) :
    Stat.Reads ⟨.label n, range⟩ := by
  intro more
  have close := matches_constant (r := .closeLabel) "::" rfl (by decide) (by decide) (by rfl) (";" :: more)
  refine .pick (opens_token "::" _) (by rfl)
    (Matches.phrase (r := .labelStat) rfl (.text_seq (by decide) ((matches_name identifier _).seq close)) ?_)
  rintro range' ts ⟨us, vs, rfl, ⟨t, rfl, named⟩, c, rfl, -⟩
  exact .bind_ok named (.ok (by simp))

theorem reads_break (range : Option TextRange) : Stat.Reads ⟨.breakLoop, range⟩ := by
  intro more
  have token := matches_constant (r := .breakStat) "break" rfl (by decide) (by decide) (by rfl) (";" :: more)
  refine .pick (opens_token "break" _) (by rfl) (token.post ?_)
  rintro ts ⟨t, rfl, start, rfl⟩
  exact ⟨_, rfl, .ok (by simp)⟩

theorem reads_goto {n : String} (identifier : isIdentifier n = true) (range : Option TextRange) :
    Stat.Reads ⟨.gotoLabel n, range⟩ := by
  intro more
  refine .pick (opens_token "goto" _) (by rfl)
    (Matches.phrase (r := .gotoStat) rfl (.text_seq (by decide) (matches_name identifier _)) ?_)
  rintro range' ts ⟨t, rfl, named⟩
  exact .bind_ok named (.ok (by simp))

/-! ## Blocks and loops -/

/-- A block with the word that ends it. -/
theorem matches_body {body : Block} (inner : body.Reads) (more : List String) :
    Matches (.seq (.rule .block) (.rule .endWord)) (body.tokens ++ ["end"]) more
      (fun ts => ∃ b c, ts = [b, c] ∧ Gives Block.erase (blockOf b) body) := by
  have ends : BlockEnds (["end"] ++ more) := .inr ⟨"end", more, rfl, by decide⟩
  refine ((inner _ ends).seq (matches_endWord more)).post ?_
  rintro ts ⟨us, vs, rfl, ⟨b, rfl, given⟩, c, rfl, -⟩
  exact ⟨b, c, rfl, given⟩

theorem reads_enclosed {body : Block} (inner : body.Reads) (range : Option TextRange) :
    Stat.Reads ⟨.enclosed body, range⟩ := by
  intro more
  refine .pick (opens_token "do" _) (by rfl)
    (Matches.phrase (r := .doStat) rfl (.text_seq (by decide) (matches_body inner _)) ?_)
  rintro range' ts ⟨b, c, rfl, given⟩
  exact given.bind fun x same => .ok (by simp [same])

theorem reads_while {cond : Exp} {body : Block} (test : cond.Reads) (inner : body.Reads) (range : Option TextRange) :
    Stat.Reads ⟨.whileLoop cond body, range⟩ := by
  intro more
  have first := test.read ("do" :: (body.tokens ++ ["end"]) ++ ";" :: more) ⟨"do", _, rfl, by decide⟩
  refine .pick (opens_token "while" _) (by rfl) (Matches.phrase (r := .whileStat) rfl
    (.text_seq (by decide) (first.seq (.text_seq (by decide) (matches_body inner _)))) ?_)
  rintro range' ts ⟨us, vs, rfl, ⟨t, rfl, given⟩, b, c, rfl, given'⟩
  exact given.bind fun x same => given'.bind fun y same' => .ok (by simp [same, same'])

theorem reads_repeat {cond : Exp} {body : Block} (inner : body.Reads) (test : cond.Reads) (range : Option TextRange) :
    Stat.Reads ⟨.repeatLoop body cond, range⟩ := by
  intro more
  have first := inner ("until" :: cond.tokens ++ ";" :: more) (.inr ⟨"until", _, rfl, by decide⟩)
  have last := test.read (";" :: more) ⟨";", _, rfl, by decide⟩
  refine .pick (opens_token "repeat" _) (by rfl)
    (Matches.phrase (r := .repeatStat) rfl (.text_seq (by decide) (first.seq (.text_seq (by decide) last))) ?_)
  rintro range' ts ⟨us, vs, rfl, ⟨b, rfl, given⟩, t, rfl, given'⟩
  exact given.bind fun x same => given'.bind fun y same' => .ok (by simp [same, same'])

theorem reads_numericFor {v : String} {a l : Exp} {body : Block} (identifier : isIdentifier v = true) (start : a.Reads)
    (limit : l.Reads) (inner : body.Reads) (range : Option TextRange) :
    Stat.Reads ⟨.numericFor v a l none body, range⟩ := by
  intro more
  have noStep : Fails (.seq (.text ",") (.rule .exp)) ("do" :: (body.tokens ++ ["end"]) ++ ";" :: more) :=
    .of_shape (opens_token "do" _) (by rfl)
  have last := (limit.read ("do" :: (body.tokens ++ ["end"]) ++ ";" :: more) ⟨"do", _, rfl, by decide⟩).seq
    (.seq_of_nil (.opt_nil noStep) (.text_seq (by decide) (matches_body inner _)))
  have values := (start.read ("," :: (l.tokens ++ "do" :: (body.tokens ++ ["end"])) ++ ";" :: more)
    ⟨",", _, rfl, by decide⟩).seq (.text_seq (by decide) last)
  refine .pick (opens_token "for" _) (by rfl) (Matches.phrase (r := .numericForStat) rfl
    (.text_seq (by decide) ((matches_name identifier _).seq (.text_seq (by decide) values))) ?_)
  rintro range' ts ⟨us, vs, rfl, ⟨n, rfl, named⟩, ws, xs, rfl, ⟨t, rfl, first⟩, ys, zs, rfl, ⟨u, rfl, second⟩, rest⟩
  obtain ⟨b, c, rfl, given⟩ := rest
  exact .bind_ok named (first.bind fun x same => second.bind fun y same' => given.bind fun z same'' =>
    .ok (by simp [same, same', same'']))

theorem reads_numericFor_step {v : String} {a l s : Exp} {body : Block} (identifier : isIdentifier v = true)
    (start : a.Reads) (limit : l.Reads) (step : s.Reads) (inner : body.Reads) (range : Option TextRange) :
    Stat.Reads ⟨.numericFor v a l (some s) body, range⟩ := by
  intro more
  have steps := step.read ("do" :: (body.tokens ++ ["end"]) ++ ";" :: more) ⟨"do", _, rfl, by decide⟩
  have further := (Matches.opt (.text_seq (t := ",") (by decide) steps)).seq
    (.text_seq (t := "do") (by decide) (matches_body inner _))
  have last := (limit.read ("," :: s.tokens ++ "do" :: (body.tokens ++ ["end"]) ++ ";" :: more)
    ⟨",", _, rfl, by decide⟩).seq further
  have values := (start.read ("," :: (l.tokens ++ ("," :: s.tokens ++ "do" :: (body.tokens ++ ["end"]))) ++ ";" :: more)
    ⟨",", _, rfl, by decide⟩).seq (.text_seq (by decide) last)
  refine .pick (opens_token "for" _) (by rfl) (Matches.phrase (r := .numericForStat) rfl
    (.text_seq (by decide) ((matches_name identifier _).seq (.text_seq (by decide) values))) ?_)
  rintro range' ts ⟨us, vs, rfl, ⟨n, rfl, named⟩, ws, xs, rfl, ⟨t, rfl, first⟩, ys, zs, rfl, ⟨u, rfl, second⟩, rest⟩
  obtain ⟨as, bs, rfl, ⟨w, rfl, third⟩, b, c, rfl, given⟩ := rest
  exact .bind_ok named (first.bind fun x same => second.bind fun y same' => third.bind fun z same'' =>
    given.bind fun block inside => .ok (by simp [same, same', same'', inside]))

theorem reads_genericFor {names : List String} {es : List Exp} {body : Block} (some_name : names ≠ [])
    (some_exp : es ≠ []) (identifiers : ∀ n ∈ names, isIdentifier n = true) (each : ∀ e ∈ es, e.Reads)
    (inner : body.Reads) (range : Option TextRange) : Stat.Reads ⟨.genericFor names es body, range⟩ := by
  intro more
  have ends : StartsWith [";", ")", "do"] ("do" :: (body.tokens ++ ["end"]) ++ ";" :: more) := ⟨"do", _, rfl, by decide⟩
  have noMore : Fails (.seq (.text ",") (.rule .name))
      ("in" :: (separated "," (expsTokens es) ++ "do" :: (body.tokens ++ ["end"])) ++ ";" :: more) :=
    .of_shape (opens_token "in" _) (by rfl)
  have values := (matches_exps some_exp each ends).seq (.text_seq (by decide) (matches_body inner _))
  have notNumeric : ∀ other ∈ ([.numericForStat] : List Rule),
      Fails (.rule other) ((Stat.mk (.genericFor names es body) range).tokens ++ ";" :: more) := by
    intro other member
    obtain rfl := List.mem_singleton.mp member
    cases names with
    | nil => exact absurd rfl some_name
    | cons n names =>
      have split : (Stat.mk (.genericFor (n :: names) es body) range).tokens ++ ";" :: more =
          "for" :: ([n] ++ (names.flatMap (fun m => [",", m]) ++
            "in" :: (separated "," (expsTokens es) ++ "do" :: (body.tokens ++ ["end"])) ++ ";" :: more)) := by
        simp [tokens, StatKind.tokens, separated, List.flatMap_map]
      rw [split]
      have first := matches_name (identifiers n List.mem_cons_self)
      refine .phrase rfl (.text_seq (by decide) (.seq_of_matches (first _) ?_))
      cases names with
      | nil => exact .of_shape (opens_token "in" _) (by rfl)
      | cons m names => exact .of_shape (opens_token "," _) (by rfl)
  refine .pick_of_fails (opens_token "for" _) notNumeric (by rfl) (Matches.phrase (r := .genericForStat) rfl
    (.text_seq (by decide) ((matches_names some_name identifiers noMore).seq (.text_seq (by decide) values))) ?_)
  rintro range' ts ⟨us, vs, rfl, ⟨t, rfl, range₁, ns, rfl, named⟩, ws, xs, rfl, exps, b, c, rfl, given⟩
  obtain ⟨u, rfl, range₂, ys, rfl, first⟩ := exps
  exact .bind_ok named (first.bind fun x same => given.bind fun y same' => .ok (by simp [same, same']))

end Stat

/-! ## Conditions -/

structure Clause.Reads (c : Clause) : Prop where
  test : c.cond.Reads
  block : c.body.Reads

/-- What stands between the last clause and the end of an `if`. -/
def elseTokens : Option Block → List String
  | none => []
  | some b => "else" :: b.tokens

/-- The further clauses of an `if` and its last block, without ranges. -/
def clauseParts (parts : List Clause × Option Block) : List Clause × Option Block :=
  (clausesErase parts.1, parts.2.map Block.erase)

/-- A further clause. -/
def IsClause (c : Clause) (t : ParseTree Rule) : Prop :=
  ∃ range u b, t = .phrase .elseifClause range [u, b] ∧ Gives Exp.erase (expOf u) c.cond ∧
    Gives Block.erase (blockOf b) c.body

theorem matches_elseif {c : Clause} (reads : c.Reads) {more : List String} (ends : BlockEnds more) :
    Matches (.rule .elseifClause) ("elseif" :: c.tokens) more (One (IsClause c)) := by
  obtain ⟨cond, body⟩ := c
  have first := reads.test.read ("then" :: body.tokens ++ more) ⟨"then", _, rfl, by decide⟩
  refine Matches.phrase (r := .elseifClause) rfl
    (.text_seq (by decide) (first.seq (.text_seq (by decide) (reads.block more ends)))) ?_
  rintro range ts ⟨us, vs, rfl, ⟨u, rfl, given⟩, b, rfl, given'⟩
  exact ⟨range, u, b, rfl, given, given'⟩

theorem matches_else {otherwise : Option Block} (reads : ∀ b ∈ otherwise, b.Reads) (more : List String) :
    Matches (.seq (.opt (.rule .elseClause)) (.rule .endWord)) (elseTokens otherwise ++ ["end"]) more
      (fun ts => ∀ range, Gives clauseParts (clausesOf range ts) ([], otherwise)) := by
  cases otherwise with
  | none =>
    have noElse : Fails (.rule .elseClause) (["end"] ++ more) := .of_shape (opens_token "end" more) (by rfl)
    refine (Matches.seq_of_nil (.opt_nil noElse) (matches_endWord more)).post ?_
    rintro ts ⟨t, rfl, start, rfl⟩ range
    exact .ok rfl
  | some block =>
    have ends : BlockEnds (["end"] ++ more) := .inr ⟨"end", more, rfl, by decide⟩
    have last : Matches (.rule .elseClause) ("else" :: block.tokens) (["end"] ++ more)
        (One fun t => ∃ range b, t = .phrase .elseClause range [b] ∧ Gives Block.erase (blockOf b) block) := by
      refine .phrase rfl (.text_seq (by decide) (reads block rfl _ ends)) ?_
      rintro range ts ⟨b, rfl, given⟩
      exact ⟨range, b, rfl, given⟩
    refine (last.opt.seq (matches_endWord more)).post ?_
    rintro ts ⟨us, vs, rfl, ⟨t, rfl, range', b, rfl, given⟩, c, rfl, start, rfl⟩ range
    exact given.bind fun x same => .ok (by simp [clauseParts, same])

theorem clausesOf_rows {clauses : List Clause} {otherwise : Option Block} {ts us : List (ParseTree Rule)}
    {range : TextRange} (rows : Rows (fun c => One (IsClause c)) clauses ts)
    (last : Gives clauseParts (clausesOf range us) ([], otherwise)) :
    Gives clauseParts (clausesOf range (ts ++ us)) (clauses, otherwise) := by
  induction rows with
  | nil => exact last
  | @cons c _ _ _ first _ ih =>
    obtain ⟨t, rfl, range', u, b, rfl, test, block⟩ := first
    obtain ⟨cond, body⟩ := c
    refine test.bind fun x same => block.bind fun y same' => ih.bind fun parts same'' => .ok ?_
    simp only [clauseParts, Prod.mk.injEq] at same'' ⊢
    simp [same, same', same'']

theorem clausesTokens_eq (clauses : List Clause) :
    clausesTokens "elseif" clauses = clauses.flatMap fun c => "elseif" :: c.tokens := by
  induction clauses with
  | nil => rw [clausesTokens]; rfl
  | cons c clauses ih => rw [clausesTokens, ih]; rfl

theorem Stat.reads_if {c : Clause} {clauses : List Clause} {otherwise : Option Block} (first : c.Reads)
    (each : ∀ d ∈ clauses, d.Reads) (last : ∀ b ∈ otherwise, b.Reads) (range : Option TextRange) :
    Stat.Reads ⟨.ifChain (c :: clauses) otherwise, range⟩ := by
  intro more
  obtain ⟨cond, body⟩ := c
  have split : (Stat.mk (.ifChain (⟨cond, body⟩ :: clauses) otherwise) range).tokens =
      "if" :: (cond.tokens ++ "then" :: (body.tokens ++ (clauses.flatMap (fun c => "elseif" :: c.tokens) ++
        (elseTokens otherwise ++ ["end"])))) := by
    cases otherwise <;> simp [tokens, StatKind.tokens, clausesTokens, Clause.tokens, clausesTokens_eq, elseTokens]
  have ends : BlockEnds (elseTokens otherwise ++ ["end"] ++ ";" :: more) := by
    cases otherwise with
    | none => exact .inr ⟨"end", _, rfl, by decide⟩
    | some b => exact .inr ⟨"else", _, rfl, by decide⟩
  have noClause : Fails (.rule .elseifClause) (elseTokens otherwise ++ ["end"] ++ ";" :: more) := by
    cases otherwise with
    | none => exact .of_shape (opens_token "end" _) (by rfl)
    | some b => exact .of_shape (opens_token "else" _) (by rfl)
  have items : Items (.rule .elseifClause) BlockEnds (fun c => "elseif" :: Clause.tokens c)
      (fun c => One (IsClause c)) clauses :=
    ⟨fun d member rest ends => matches_elseif (each d member) ends,
      fun d _ rest => .inr ⟨"elseif", _, rfl, by decide⟩⟩
  have further := (items.star (by decide) ends noClause).seq (matches_else last (";" :: more))
  have inner := (first.block _ (by rw [List.append_assoc]; exact items.follows_rest ends)).seq further
  have test := first.test.read ("then" :: (body.tokens ++ (clauses.flatMap (fun c => "elseif" :: c.tokens) ++
    (elseTokens otherwise ++ ["end"]))) ++ ";" :: more) ⟨"then", _, rfl, by decide⟩
  rw [split]
  refine .pick (opens_token "if" _) (by rfl) (Matches.phrase (r := .ifStat) rfl
    (.text_seq (by decide) (test.seq (.text_seq (by decide) inner))) ?_)
  rintro range' ts ⟨us, vs, rfl, ⟨t, rfl, given⟩, ws, xs, rfl, ⟨b, rfl, given'⟩, ys, zs, rfl, rows, rest⟩
  have further := clausesOf_rows rows (rest range')
  refine given.bind fun x same => given'.bind fun y same' => further.bind fun parts same'' => .ok ?_
  obtain ⟨found, block⟩ := parts
  simp only [clauseParts, Prod.mk.injEq] at same''
  cases otherwise <;> cases block <;> simp_all

/-! ## Named functions -/

theorem funcNameOf_rows {path : List String} {ts us : List (ParseTree Rule)} {method : Option String}
    (rows : Rows (fun n => One fun t => nameOf t = .ok n) path ts) (last : funcNameOf us = .ok ⟨[], method⟩) :
    funcNameOf (ts ++ us) = .ok ⟨path, method⟩ := by
  induction rows with
  | nil => exact last
  | cons first _ ih =>
    obtain ⟨t, rfl, named⟩ := first
    rw [List.append_assoc, List.singleton_append, funcNameOf, named, ih]
    · rfl
    · rintro range m rfl
      simp [nameOf, misplaced] at named

theorem matches_funcName {name : FuncName} (wellFormed : name.wellFormed = true) {more : List String}
    (ends : StartsWith ["("] more) : Matches (.rule .funcName) name.tokens more
      (One fun t => ∃ range ts, t = .phrase .funcName range ts ∧ funcNameOf ts = .ok name) := by
  obtain ⟨path, method⟩ := name
  simp only [FuncName.wellFormed, Bool.and_eq_true, Bool.not_eq_true', List.all_eq_true, Option.all_eq_true]
    at wellFormed
  obtain ⟨⟨some_name, identifiers⟩, isMethod⟩ := wellFormed
  cases path with
  | nil => cases some_name
  | cons n path =>
    have each (m : String) (member : m ∈ n :: path) (rest : List String) (_ : True) :=
      matches_name (identifiers m member) rest
    have between (rest : List String) : Matches (.text ".") ["."] rest (· = []) := .text (by decide)
    have dots {rest : List String} (fails : Fails (.seq (.text ".") (.rule .name)) rest) :=
      Matches.sepBy (by decide) between each (fun _ => trivial) trivial fails
    cases method with
    | none =>
      have noMethod : Fails (.rule .funcMethod) more := .of_first ends (by rfl)
      rw [FuncName.tokens, List.append_nil]
      refine .phrase rfl ((dots (.of_first ends (by rfl))).seq_nil (.opt_nil noMethod)) ?_
      intro range ts rows
      refine ⟨range, ts, rfl, ?_⟩
      rw [← List.append_nil ts]
      exact funcNameOf_rows rows (by rw [funcNameOf])
    | some method =>
      have last : Matches (.rule .funcMethod) [":", method] more
          (One fun t => ∃ range m, t = .phrase .funcMethod range [m] ∧ nameOf m = .ok method) := by
        refine .phrase rfl (.text_seq (by decide) (matches_name (isMethod method rfl) more)) ?_
        rintro range ts ⟨m, rfl, named⟩
        exact ⟨range, m, rfl, named⟩
      have noMore : Fails (.seq (.text ".") (.rule .name)) ([":", method] ++ more) :=
        .of_shape (opens_token ":" _) (by rfl)
      refine .phrase rfl ((dots noMore).seq last.opt) ?_
      rintro range ts ⟨us, vs, rfl, rows, t, rfl, range', m, rfl, named⟩
      refine ⟨range, _, rfl, funcNameOf_rows rows ?_⟩
      rw [funcNameOf, named]
      rfl

namespace Stat

theorem reads_function {name : FuncName} {body : FuncBody} (wellFormed : name.wellFormed = true) (inner : body.Reads)
    (range : Option TextRange) : Stat.Reads ⟨.function name body, range⟩ := by
  intro more
  have ends : StartsWith ["("] (body.tokens ++ ";" :: more) := by
    obtain ⟨params, isVararg, block⟩ := body
    exact ⟨"(", _, rfl, by decide⟩
  refine .pick (opens_token "function" _) (by rfl) (Matches.phrase (r := .functionStat) rfl
    (.text_seq (by decide) ((matches_funcName wellFormed ends).seq (inner _))) ?_)
  rintro range' ts ⟨us, vs, rfl, ⟨t, rfl, range'', ns, rfl, named⟩, b, rfl, given⟩
  exact .bind_ok named (given.bind fun x same => .ok (by simp [same]))

theorem reads_localFunction {name : String} {body : FuncBody} (identifier : isIdentifier name = true)
    (inner : body.Reads) (range : Option TextRange) : Stat.Reads ⟨.localFunction name body, range⟩ := by
  intro more
  refine .pick (opens_token "local" _) (by rfl) (Matches.phrase (r := .localFunctionStat) rfl
    (.text_seq (by decide) (.text_seq (by decide) ((matches_name identifier _).seq (inner _)))) ?_)
  rintro range' ts ⟨us, vs, rfl, ⟨t, rfl, named⟩, b, rfl, given⟩
  exact .bind_ok named (given.bind fun x same => .ok (by simp [same]))

end Stat

/-! ## Local variables -/

/-- What may follow a local variable. -/
def localEnds : List String := [",", "=", ";"]

theorem matches_attribName {a : AttribName} (wellFormed : a.wellFormed = true) {more : List String}
    (ends : StartsWith localEnds more) :
    Matches (.rule .attribName) a.tokens more (One fun t => attribNameOf t = .ok a) := by
  obtain ⟨name, attrib⟩ := a
  simp only [AttribName.wellFormed, Bool.and_eq_true, Option.all_eq_true] at wellFormed
  cases attrib with
  | none =>
    have noAttrib : Fails (.rule .attrib) more := .of_first ends (by rfl)
    refine .phrase rfl ((matches_name wellFormed.1 more).seq_nil (.opt_nil noAttrib)) ?_
    rintro range ts ⟨n, rfl, named⟩
    rw [attribNameOf, named]
    rfl
  | some attrib =>
    have close := matches_constant (r := .closeAttrib) ">" rfl (by decide) (by decide) (by rfl) more
    have last : Matches (.rule .attrib) ["<", attrib, ">"] more
        (One fun t => ∃ range a c, t = .phrase .attrib range [a, c] ∧ nameOf a = .ok attrib) := by
      refine .phrase rfl (.text_seq (by decide) ((matches_name (wellFormed.2 attrib rfl) _).seq close)) ?_
      rintro range ts ⟨us, vs, rfl, ⟨a, rfl, named⟩, c, rfl, -⟩
      exact ⟨range, a, c, rfl, named⟩
    refine .phrase rfl ((matches_name wellFormed.1 _).seq last.opt) ?_
    rintro range ts ⟨us, vs, rfl, ⟨n, rfl, named⟩, t, rfl, range', a, c, rfl, named'⟩
    rw [List.singleton_append, attribNameOf, named, named']
    rfl

theorem matches_attribNames {names : List AttribName} (some_name : names ≠ [])
    (wellFormed : ∀ a ∈ names, a.wellFormed = true) {more : List String} (ends : StartsWith ["=", ";"] more) :
    Matches (.rule .attribNames) (separated "," (names.map AttribName.tokens)) more
      (One fun t => ∃ range ts, t = .phrase .attribNames range ts ∧ ts.mapM attribNameOf = .ok names) := by
  cases names with
  | nil => exact absurd rfl some_name
  | cons a names =>
    have each (b : AttribName) (member : b ∈ a :: names) (rest : List String) (ends : StartsWith localEnds rest) :=
      matches_attribName (wellFormed b member) ends
    refine .phrase rfl (Matches.sepBy (by decide) (fun rest => Matches.text (by decide)) each
      (fun rest => ⟨",", rest, rfl, by decide⟩) (ends.mono (by decide)) (.of_first ends (by rfl))) ?_
    exact fun range ts rows => ⟨range, ts, rfl, mapM_rows rows⟩

/-- From word characters, a name is read whole or not at all. -/
theorem name_of_isWordChar {d : Char} {s : List Char} (inside : ∀ e ∈ s, isWordChar e = true) :
    Lexeme.name (d :: s) = none ∨ Lexeme.name (d :: s) = some (d :: s, []) := by
  have word : s.takeWhile isWordChar = s := List.takeWhile_eq_self_iff.mpr inside
  have nothing : s.dropWhile isWordChar = [] := List.dropWhile_eq_nil_iff.mpr inside
  rw [Lexeme.name]
  split
  · simp only [word, nothing]
    split
    · exact .inl rfl
    · exact .inr rfl
  · exact .inl rfl

/-- A local variable whose name begins with the word `function` declares no function. -/
theorem fails_localFunction {n : String} (identifier : isIdentifier n = true) {more : List String}
    (ends : StartsWith ("<" :: localEnds) more) : Fails (.rule .localFunctionStat) ("local" :: n :: more) := by
  have behind : Fails (.seq (.text "function") (.seq (.rule .name) (.rule .funcBody))) (n :: more) := by
    intro clean c here
    have clean' : Clean more := fun t member => clean t (List.mem_cons_of_mem _ member)
    have noBody : Fails (.rule .funcBody) more := .of_first ends (by rfl)
    rcases tries_text_name "function" (by decide) (by decide) (by decide) identifier (ends_spaced more) here with
      failed | ⟨d, s, offset, word, inside⟩
    · exact tries_seq_of_none failed
    · obtain ⟨visible, dash, -⟩ := isWordChar_visible (inside d List.mem_cons_self)
      have scanned := blind_name (d :: s) _ (ends_spaced more)
      rw [tries_seq_of_some word, skip_settled (settled_cons visible dash _)]
      rcases name_of_isWordChar fun e member => inside e (List.mem_cons_of_mem _ member) with none | whole
      · rw [none] at scanned
        rw [tries_seq_of_none (by rw [tries_rule]; exact read_token_none rfl scanned)]
        rfl
      · rw [whole] at scanned
        have named : tries (.rule .name) ⟨offset, d :: s ++ spaced more⟩ =
            some ([.token .name offset (d :: s)], ⟨offset + Text.byteSize (d :: s), spaced more⟩) := by
          rw [tries_rule, Peg.Grammar.read_token layered_grammar rfl, Cursor.read, scanned]
          rfl
        have here' : At more ⟨offset + Text.byteSize (d :: s), spaced more⟩ := .inr rfl
        rw [tries_seq_of_some named, noBody clean' _ (here'.rest_skip clean')]
        rfl
  exact .phrase rfl (.text_seq (by decide) behind)

theorem matches_initial {values : List Exp} (each : ∀ e ∈ values, e.Reads) (more : List String) :
    Matches (.opt (.seq (.text "=") (.rule .exps))) (initialTokens (expsTokens values)) (";" :: more)
      (fun ts => (values = [] ∧ ts = []) ∨
        ∃ range us, ts = [.phrase .exps range us] ∧ Gives expsErase (expsOf us) values) := by
  cases values with
  | nil =>
    refine (Matches.opt_nil (.of_shape (opens_token ";" more) (by rfl))).post ?_
    rintro ts rfl
    exact .inl ⟨rfl, rfl⟩
  | cons e es =>
    have ends : StartsWith [";", ")", "do"] (";" :: more) := ⟨";", more, rfl, by decide⟩
    refine (Matches.opt (.text_seq (t := "=") (by decide) (matches_exps (by simp) each ends))).post ?_
    rintro ts ⟨t, rfl, range, us, rfl, given⟩
    exact .inr ⟨range, us, rfl, given⟩

theorem Stat.reads_local {names : List AttribName} {values : List Exp} (some_name : names ≠ [])
    (wellFormed : ∀ a ∈ names, a.wellFormed = true) (each : ∀ e ∈ values, e.Reads) (range : Option TextRange) :
    Stat.Reads ⟨.localVars names values, range⟩ := by
  intro more
  have starts : StartsWith ["=", ";"] (initialTokens (expsTokens values) ++ ";" :: more) := by
    cases values with
    | nil => exact ⟨";", more, rfl, by decide⟩
    | cons e es => exact ⟨"=", _, rfl, by decide⟩
  have notFunction : ∀ other ∈ ([.localFunctionStat] : List Rule),
      Fails (.rule other) ((Stat.mk (.localVars names values) range).tokens ++ ";" :: more) := by
    intro other member
    obtain rfl := List.mem_singleton.mp member
    cases names with
    | nil => exact absurd rfl some_name
    | cons a names =>
      obtain ⟨n, attrib⟩ := a
      have first := wellFormed _ List.mem_cons_self
      simp only [AttribName.wellFormed, Bool.and_eq_true] at first
      have split : (Stat.mk (.localVars (⟨n, attrib⟩ :: names) values) range).tokens ++ ";" :: more =
          "local" :: n :: ((AttribName.mk n attrib).tokens.tail ++ (names.flatMap (fun b => "," :: b.tokens) ++
            (initialTokens (expsTokens values) ++ ";" :: more))) := by
        cases attrib <;> simp [tokens, StatKind.tokens, separated, AttribName.tokens, List.flatMap_map]
      rw [split]
      refine fails_localFunction first.1 ?_
      cases attrib with
      | some attrib => exact ⟨"<", _, rfl, by decide⟩
      | none =>
        cases names with
        | nil => exact starts.mono (by decide)
        | cons b names => exact ⟨",", _, rfl, by decide⟩
  have vars := matches_attribNames some_name wellFormed starts
  refine .pick_of_fails (opens_token "local" _) notFunction (by rfl)
    (Matches.phrase (r := .localStat) rfl (.text_seq (by decide) (vars.seq (matches_initial each more))) ?_)
  rintro range' ts ⟨us, vs, rfl, ⟨t, rfl, range₁, ns, rfl, named⟩, initial⟩
  rcases initial with ⟨rfl, rfl⟩ | ⟨range₂, xs, rfl, given⟩
  · exact .bind_ok named (.ok (by simp))
  · exact .bind_ok named (given.bind fun ys same => .ok (by simp [same]))

end LuaLowering.Syntax
