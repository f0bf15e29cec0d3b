import LuaLowering.Proofs.Operands
/-!
# Reading variables and calls back

Variables, calls and expressions in parentheses are read back from their tokens if the expressions inside them are. What
follows a variable decides how far it reaches: no access may stand there, also not behind calls (`fails_suffix`).
-/
namespace LuaLowering.Syntax
open Peg Peg.Pattern Lexeme

/-! ## Lists of trees -/

/-- A conversion of each tree gives the list of results. -/
theorem gives_of_rows {α : Type} (convert : List (ParseTree Rule) → FromTree (List α))
    {convertOne : ParseTree Rule → FromTree α} {erase : α → α} (erases : List α → List α) {as : List α}
    {ts : List (ParseTree Rule)} (rows : Rows (fun a => One fun t => Gives erase (convertOne t) a) as ts)
    (nil : convert [] = .ok []) (cons : ∀ t ts a, Gives erase (convertOne t) a →
      convert (t :: ts) = convertOne t >>= fun x => convert ts >>= fun xs => .ok (x :: xs))
    (erases_cons : ∀ a as, erases (a :: as) = erase a :: erases as) : Gives erases (convert ts) as := by
  induction rows with
  | nil => exact ⟨[], nil, rfl⟩
  | cons first _ ih =>
    obtain ⟨t, rfl, given⟩ := first
    rw [List.singleton_append, cons _ _ _ given]
    refine given.bind fun x same => ih.bind fun xs same' => .ok ?_
    rw [erases_cons, erases_cons, same, same']

theorem expsOf_rows {es : List Exp} {ts : List (ParseTree Rule)}
    (rows : Rows (fun e => One fun t => Gives Exp.erase (expOf t) e) es ts) : Gives expsErase (expsOf ts) es :=
  gives_of_rows expsOf expsErase rows (by rw [expsOf]) (fun _ _ _ _ => by rw [expsOf]; rfl) fun _ _ => rfl

theorem callsOf_rows {calls : List Call} {ts : List (ParseTree Rule)}
    (rows : Rows (fun c => One fun t => Gives Call.erase (callOf t) c) calls ts) :
    Gives callsErase (callsOf ts) calls :=
  gives_of_rows callsOf callsErase rows (by rw [callsOf]) (fun _ _ _ _ => by rw [callsOf]; rfl)
    fun _ _ => rfl

theorem fieldsOf_rows {fields : List Field} {ts : List (ParseTree Rule)} {start : Nat} {text : List Char}
    (rows : Rows (fun f => One fun t => Gives Field.erase (fieldOf t) f) fields ts) :
    Gives fieldsErase (fieldsOf (ts ++ [.token .closeBrace start text])) fields := by
  refine gives_of_rows (fun ts => fieldsOf (ts ++ [.token .closeBrace start text])) fieldsErase rows
    (by simp [fieldsOf]) ?_ fun _ _ => rfl
  intro t ts f given
  rw [List.cons_append, fieldsOf]
  · rfl
  · rintro start text rfl
    obtain ⟨x, made, -⟩ := given
    simp [fieldOf, misplaced] at made

theorem mapM_rows {α : Type} {convert : ParseTree Rule → FromTree α} {as : List α} {ts : List (ParseTree Rule)}
    (rows : Rows (fun a => One fun t => convert t = .ok a) as ts) : ts.mapM convert = .ok as := by
  induction rows with
  | nil => rfl
  | cons first _ ih =>
    obtain ⟨t, rfl, given⟩ := first
    rw [List.singleton_append, List.mapM_cons, given, ih]
    rfl

/-! ## Strings and tables -/

theorem isClean_stringToken (value : String) : isClean (stringToken value) = true := by
  simp [isClean, stringToken, QuotedString.encode, List.isPrefixOf]
  decide

theorem matches_string (value : String) (more : List String) :
    Matches (.rule .string) [stringToken value] more
      (One fun t => ∃ range ts, t = .phrase .string range ts ∧ stringOf range ts = .ok value) := by
  have whole (rest : List Char) : QuotedString.scan ((stringToken value).toList ++ rest) =
      some ((stringToken value).toList, rest) := by
    rw [stringToken, String.toList_ofList, QuotedString.scan_encode]
  have token : Matches (.rule .quotedString) [stringToken value] more _ :=
    .token rfl (isClean_stringToken value) fun rest _ => whole rest
  have fails : Fails (.rule .longString) ([stringToken value] ++ more) :=
    .of_shape (opens_string value more) (by rfl)
  refine Matches.phrase (r := .string) rfl (.second fails token) ?_
  rintro range ts ⟨t, rfl, start, rfl⟩
  refine ⟨range, _, rfl, ?_⟩
  rw [stringOf, stringToken, String.toList_ofList, QuotedString.decode_body_encode]
  simp

def Field.Reads (f : Field) : Prop := ∀ more, StartsWith [",", "\x7d"] more →
  Matches Grammar.field f.tokens more (One fun t => Gives Field.erase (fieldOf t) f)

theorem Field.reads_keyed {k v : Exp} (key : k.Reads) (value : v.Reads) : (Field.keyed k v).Reads := by
  intro more ends
  have inner := (key.read ("]" :: "=" :: v.tokens ++ more) ⟨"]", _, rfl, by decide⟩).seq
    (.text_seq (by decide) (.text_seq (by decide) (value.read more (ends.mono (by decide)))))
  refine Matches.first (Matches.phrase (r := .keyedField) rfl (.text_seq (by decide) inner) ?_)
  rintro range ts ⟨us, vs, rfl, ⟨t, rfl, first⟩, u, rfl, second⟩
  exact first.bind fun x same => second.bind fun y same' => .ok (by simp [same, same'])

theorem Field.reads_named {n : String} {v : Exp} (identifier : isIdentifier n = true) (value : v.Reads) :
    (Field.named n v).Reads := by
  intro more ends
  have inner := (matches_name identifier ("=" :: v.tokens ++ more)).seq
    (.text_seq (by decide) (value.read more (ends.mono (by decide))))
  refine .second (.of_shape (opens_name identifier _) (by rfl))
    (Matches.first (Matches.phrase (r := .namedField) rfl inner ?_))
  rintro range ts ⟨us, vs, rfl, ⟨t, rfl, first⟩, u, rfl, second⟩
  exact .bind_ok first (second.bind fun y same => .ok (by simp [same]))

theorem Field.reads_positional {v : Exp} (value : v.Reads) : (Field.positional v).Reads := by
  intro more ends
  have inner := value.read more (ends.mono (by decide))
  refine .second (value.notKeyed more) (.second (value.notNamed more (ends.mono (by decide)))
    (Matches.phrase (r := .positionalField) rfl inner ?_))
  rintro range ts ⟨t, rfl, given⟩
  exact given.bind fun x same => .ok (by simp [same])

theorem fieldsTokens_eq (fields : List Field) : fieldsTokens fields = fields.map Field.tokens := by
  induction fields with
  | nil => rw [fieldsTokens]; rfl
  | cons f fields ih => rw [fieldsTokens, ih]; rfl

theorem matches_table {fields : List Field} (each : ∀ f ∈ fields, f.Reads) (more : List String) :
    Matches (.rule .table) ("\x7b" :: (separated "," (fieldsTokens fields) ++ ["\x7d"])) more
      (One fun t => ∃ range ts, t = .phrase .table range ts ∧ Gives fieldsErase (fieldsOf ts) fields) := by
  have close := matches_constant (r := .closeBrace) "\x7d" rfl (by decide) (by decide) (by rfl) more
  cases fields with
  | nil =>
    have inner : Matches (.seq (.opt (.seq (sepBy Grammar.field Grammar.fieldSep) (.opt Grammar.fieldSep)))
        (.rule .closeBrace)) ["\x7d"] more _ :=
      .seq_of_nil (.opt_nil (.of_shape (opens_token "\x7d" _) (by rfl))) close
    refine Matches.phrase (r := .table) rfl (.text_seq (by decide) inner) ?_
    rintro range ts ⟨t, rfl, start, rfl⟩
    exact ⟨range, _, rfl, fieldsOf_rows .nil⟩
  | cons f fields =>
    have between (rest : List String) : Matches Grammar.fieldSep [","] rest (· = []) := .first (.text (by decide))
    have ends : StartsWith [",", "\x7d"] (["\x7d"] ++ more) := ⟨"\x7d", more, rfl, by decide⟩
    have items := Matches.sepBy (by decide) between each (fun rest => ⟨",", rest, rfl, by decide⟩) ends
      (.of_shape (opens_token "\x7d" more) (by rfl))
    have noMore : Matches (.opt Grammar.fieldSep) [] (["\x7d"] ++ more) (· = []) :=
      .opt_nil (.of_shape (opens_token "\x7d" more) (by rfl))
    rw [fieldsTokens_eq]
    refine Matches.phrase (r := .table) rfl (.text_seq (by decide) ((items.seq_nil noMore).opt.seq close)) ?_
    rintro range ts ⟨us, vs, rfl, rows, t, rfl, start, rfl⟩
    exact ⟨range, _, rfl, fieldsOf_rows rows⟩

/-! ## Accesses -/

/-- What may follow a variable: also the sign of an assignment. -/
def varEnds : List String := "=" :: operandEnds

structure Access.Reads (a : Access) : Prop where
  starts : ∀ more, StartsWith [".", "["] (a.tokens ++ more)
  read : ∀ more, Matches (.alt (.rule .index) (.rule .member)) a.tokens more
    (One fun t => Gives Access.erase (accessOf t) a)

theorem Access.reads_index {e : Exp} (key : e.Reads) : (Access.index e).Reads := by
  refine ⟨fun more => ⟨"[", _, rfl, by decide⟩, fun more => ?_⟩
  have close := matches_constant (r := .closeBracket) "]" rfl (by decide) (by decide) (by rfl) more
  have inner := key.read (["]"] ++ more) ⟨"]", more, rfl, by decide⟩
  refine Matches.first (Matches.phrase (r := .index) rfl (.text_seq (by decide) (inner.seq close)) ?_)
  rintro range ts ⟨us, vs, rfl, ⟨t, rfl, given⟩, c, rfl, -⟩
  exact given.bind fun x same => .ok (by simp [same])

theorem Access.reads_member {n : String} (identifier : isIdentifier n = true) : (Access.member n).Reads := by
  refine ⟨fun more => ⟨".", _, rfl, by decide⟩, fun more => ?_⟩
  refine .pick (opens_token "." _) (by rfl)
    (Matches.phrase (r := .member) rfl (.text_seq (by decide) (matches_name identifier more)) ?_)
  rintro range ts ⟨t, rfl, given⟩
  exact .bind_ok given (.ok rfl)

/-! ## Calls -/

/-- An access or a call begins here. -/
def Continues (tokens : List String) : Prop :=
  StartsWith [".", "[", ":", "(", "\x7b"] tokens ∨ ∃ value rest, tokens = stringToken value :: rest

theorem Fails.of_continues {tokens : List String} {p : Pattern Rule} (continues : Continues tokens)
    (rejects : [".", "[", ":", "(", "\x7b"].all (fun t => (Shape.token t.toList).rejects p) = true)
    (quote : Shape.quote.rejects p = true) : Fails p tokens := by
  rcases continues with starts | ⟨value, rest, rfl⟩
  · exact .of_first starts rejects
  · exact .of_shape (opens_string value rest) quote

structure Args.Reads (a : Args) : Prop where
  continues : ∀ more, Continues (a.tokens ++ more)
  notMethod : ∀ more, Fails (.rule .method) (a.tokens ++ more)
  read : ∀ more, Matches (.alt (.rule .args) (.alt (.rule .table) (.rule .string))) a.tokens more
    (One fun t => Gives Args.erase (argsOf t) a)

structure Call.Reads (c : Call) : Prop where
  continues : ∀ more, Continues (c.tokens ++ more)
  read : ∀ more, Matches (.rule .call) c.tokens more (One fun t => Gives Call.erase (callOf t) c)

theorem expsTokens_eq (es : List Exp) : expsTokens es = es.map Exp.tokens := by
  induction es with
  | nil => rw [expsTokens]; rfl
  | cons e es ih => rw [expsTokens, ih]; rfl

/-- Expressions with commas between them. -/
theorem matches_exps {es : List Exp} (some_exp : es ≠ []) (each : ∀ e ∈ es, e.Reads) {more : List String}
    (ends : StartsWith [";", ")", "do"] more) : Matches (.rule .exps) (separated "," (expsTokens es)) more
      (One fun t => ∃ range ts, t = .phrase .exps range ts ∧ Gives expsErase (expsOf ts) es) := by
  cases es with
  | nil => exact absurd rfl some_exp
  | cons e es =>
    rw [expsTokens_eq]
    refine Matches.phrase (r := .exps) rfl (Matches.sepBy (by decide) (fun rest => Matches.text (by decide))
      (fun b member rest ends => (each b member).read rest ends) (fun rest => ⟨",", rest, rfl, by decide⟩)
      (ends.mono (by decide)) (.of_first ends (by rfl))) ?_
    exact fun range ts rows => ⟨range, ts, rfl, expsOf_rows rows⟩

theorem Args.reads_list {es : List Exp} (each : ∀ e ∈ es, e.Reads) : (Args.list es).Reads := by
  refine ⟨fun more => .inl ⟨"(", _, rfl, by decide⟩, fun more => .of_shape (opens_token "(" _) (by rfl),
    fun more => .first ?_⟩
  have close := matches_constant (r := .closeParen) ")" rfl (by decide) (by decide) (by rfl) more
  rw [tokens]
  cases es with
  | nil =>
    have inner : Matches (.seq (.opt (.rule .exps)) (.rule .closeParen)) [")"] more _ :=
      .seq_of_nil (.opt_nil (.of_shape (opens_token ")" _) (by rfl))) close
    refine Matches.phrase (r := .args) rfl (.text_seq (by decide) inner) ?_
    rintro range ts ⟨t, rfl, -⟩
    exact .ok rfl
  | cons e es =>
    have ends : StartsWith [";", ")", "do"] ([")"] ++ more) := ⟨")", more, rfl, by decide⟩
    have inner := (matches_exps (by simp) each ends).opt.seq close
    refine Matches.phrase (r := .args) rfl (.text_seq (by decide) inner) ?_
    rintro range ts ⟨us, vs, rfl, ⟨t, rfl, range', es', rfl, given⟩, c, rfl, -⟩
    exact given.bind fun xs same => .ok (by simp [same])

theorem Args.reads_table {fields : List Field} (each : ∀ f ∈ fields, f.Reads) (range : Option TextRange) :
    (Args.table ⟨.table fields, range⟩).Reads := by
  refine ⟨fun more => .inl ⟨"\x7b", _, rfl, by decide⟩, fun more => .of_shape (opens_token "\x7b" _) (by rfl),
    fun more => .second (.of_shape (opens_token "\x7b" _) (by rfl)) (.first ((matches_table each more).post ?_))⟩
  rintro ts ⟨t, rfl, range', us, rfl, given⟩
  exact ⟨_, rfl, given.bind fun fs same => .ok (by simp [same])⟩

theorem Args.reads_str (value : String) (range : Option TextRange) : (Args.str ⟨.str value, range⟩).Reads := by
  refine ⟨fun more => .inr ⟨value, _, rfl⟩, fun more => .of_shape (opens_string value _) (by rfl),
    fun more => .pick (opens_string value _) (by rfl) ((matches_string value more).post ?_)⟩
  rintro ts ⟨t, rfl, range', us, rfl, given⟩
  exact ⟨_, rfl, .bind_ok given (.ok (by simp))⟩

theorem Call.reads_plain {args : Args} (reads : args.Reads) (range : Option TextRange) :
    (Call.mk none args range).Reads := by
  refine ⟨reads.continues, fun more => ?_⟩
  refine Matches.phrase (r := .call) rfl (.seq_of_nil (.opt_nil (reads.notMethod more)) (reads.read more)) ?_
  rintro range' ts ⟨t, rfl, given⟩
  exact given.bind fun x same => .ok (by simp [same])

theorem Call.reads_method {method : String} {args : Args} (identifier : isIdentifier method = true) (reads : args.Reads)
    (range : Option TextRange) : (Call.mk (some method) args range).Reads := by
  refine ⟨fun more => .inl ⟨":", _, rfl, by decide⟩, fun more => ?_⟩
  have selected : Matches (.rule .method) [":", method] (args.tokens ++ more)
      (One fun t => ∃ range m, t = .phrase .method range [m] ∧ nameOf m = .ok method) := by
    refine Matches.phrase (r := .method) rfl (.text_seq (by decide) (matches_name identifier _)) ?_
    rintro range' ts ⟨t, rfl, given⟩
    exact ⟨range', t, rfl, given⟩
  refine Matches.phrase (r := .call) rfl (selected.opt.seq (reads.read more)) ?_
  rintro range' ts ⟨us, vs, rfl, ⟨t, rfl, range'', m, rfl, named⟩, u, rfl, given⟩
  exact .bind_ok named (given.bind fun x same => .ok (by simp [same]))

theorem callsTokens_eq (calls : List Call) : (callsTokens calls).flatten = calls.flatMap Call.tokens := by
  induction calls with
  | nil => rw [callsTokens]; rfl
  | cons c calls ih => rw [callsTokens, List.flatten_cons, ih, List.flatMap_cons]

theorem matches_calls {calls : List Call} (each : ∀ c ∈ calls, c.Reads) {more : List String}
    (fails : Fails (.rule .call) more) : Matches (.star (.rule .call)) (callsTokens calls).flatten more
      (Rows (fun c => One fun t => Gives Call.erase (callOf t) c) calls) := by
  rw [callsTokens_eq]
  have items : Items (.rule .call) (fun _ => True) Call.tokens
      (fun c => One fun t => Gives Call.erase (callOf t) c) calls :=
    ⟨fun c member rest _ => (each c member).read rest, fun _ _ _ => trivial⟩
  exact items.star (by decide) trivial fails

theorem continues_calls {calls : List Call} (some_call : calls ≠ []) (each : ∀ c ∈ calls, c.Reads)
    (more : List String) : Continues ((callsTokens calls).flatten ++ more) := by
  cases calls with
  | nil => exact absurd rfl some_call
  | cons c calls =>
    rw [callsTokens, List.flatten_cons, List.append_assoc]
    exact (each c List.mem_cons_self).continues _

/-! ## Suffixes -/

structure Suffix.Reads (s : Suffix) : Prop where
  continues : ∀ more, Continues (s.tokens ++ more)
  read : ∀ more, Matches (.rule .suffix) s.tokens more
    (One fun t => ∃ range ts, t = .phrase .suffix range ts ∧ Gives Suffix.erase (suffixOf range ts) s)

theorem suffixOf_rows {calls : List Call} {us : List (ParseTree Rule)} {t : ParseTree Rule} {a : Access}
    (rows : Rows (fun c => One fun t => Gives Call.erase (callOf t) c) calls us)
    (access : Gives Access.erase (accessOf t) a) (range : TextRange) :
    Gives Suffix.erase (suffixOf range (us ++ [t])) ⟨calls, a⟩ := by
  induction rows with
  | nil =>
    rw [List.nil_append, suffixOf]
    exact access.bind fun x same => .ok (by simp [same])
  | cons first _ ih =>
    obtain ⟨u, rfl, given⟩ := first
    rw [List.singleton_append, List.cons_append, suffixOf]
    · refine given.bind fun x same => ih.bind fun s same' => .ok ?_
      obtain ⟨calls', access'⟩ := s
      simp only [Suffix.relabel, Suffix.mk.injEq] at same'
      simp [same, same']
    · simp

theorem Suffix.reads {calls : List Call} {a : Access} (each : ∀ c ∈ calls, c.Reads) (access : a.Reads) :
    (Suffix.mk calls a).Reads := by
  refine ⟨fun more => ?_, fun more => ?_⟩
  · rw [tokens]
    cases calls with
    | nil =>
      rw [callsTokens]
      exact .inl ((access.starts more).mono (by decide))
    | cons c calls =>
      rw [List.append_assoc]
      exact continues_calls (by simp) each _
  · have fails : Fails (.rule .call) (a.tokens ++ more) := .of_first (access.starts more) (by rfl)
    refine Matches.phrase (r := .suffix) rfl ((matches_calls each fails).seq (access.read more)) ?_
    rintro range ts ⟨us, vs, rfl, rows, t, rfl, given⟩
    exact ⟨range, _, rfl, suffixOf_rows rows given range⟩

/-- Behind a variable no access follows, also not after calls. -/
theorem fails_suffix {calls : List Call} (each : ∀ c ∈ calls, c.Reads) {more : List String}
    (ends : StartsWith varEnds more) : Fails (.rule .suffix) ((callsTokens calls).flatten ++ more) := by
  have noCall : Fails (.rule .call) more := .of_first ends (by rfl)
  have noAccess : Fails (.alt (.rule .index) (.rule .member)) more := .of_first ends (by rfl)
  exact .phrase rfl (.seq_of_matches (matches_calls each noCall) noAccess)

/-! ## Variables -/

/-- A name or an expression in parentheses begins here. -/
def Opening (tokens : List String) : Prop :=
  (∃ n rest, tokens = n :: rest ∧ isIdentifier n = true) ∨ ∃ rest, tokens = "(" :: rest

theorem Fails.of_opening {tokens : List String} {p : Pattern Rule} (opening : Opening tokens)
    (name : Shape.name.rejects p = true) (paren : (Shape.token "(".toList).rejects p = true) : Fails p tokens := by
  rcases opening with ⟨n, rest, rfl, identifier⟩ | ⟨rest, rfl⟩
  · exact .of_shape (opens_name identifier rest) name
  · exact .of_shape (opens_token "(" rest) paren

theorem Matches.pick_of_opening (failing : List Rule) {p : Pattern Rule} {r : Rule} {xs more : List String}
    {Q : List (ParseTree Rule) → Prop} (opening : Opening (xs ++ more))
    (fails : ∀ other ∈ failing, Fails (.rule other) (xs ++ more)) (name : Shape.name.pick failing p = some r)
    (paren : (Shape.token "(".toList).pick failing p = some r) (matched : Matches (.rule r) xs more Q) :
    Matches p xs more Q := by
  rcases opening with ⟨n, rest, split, identifier⟩ | ⟨rest, split⟩
  · exact .pick_of_fails (split ▸ opens_name identifier rest) fails name matched
  · exact .pick_of_fails (split ▸ opens_token "(" rest) fails paren matched

theorem matches_parenExp {e : Exp} (reads : e.Reads) (more : List String) :
    Matches (.rule .parenExp) ("(" :: (e.tokens ++ [")"])) more
      (One fun t => ∃ range u c, t = .phrase .parenExp range [u, c] ∧ Gives Exp.erase (expOf u) e) := by
  have close := matches_constant (r := .closeParen) ")" rfl (by decide) (by decide) (by rfl) more
  have inner := (reads.read ([")"] ++ more) ⟨")", more, rfl, by decide⟩).seq close
  refine Matches.phrase (r := .parenExp) rfl (.text_seq (by decide) inner) ?_
  rintro range ts ⟨us, vs, rfl, ⟨u, rfl, given⟩, c, rfl, -⟩
  exact ⟨range, u, c, rfl, given⟩

/-- Calls, accesses or the end of an operand follow. -/
def Follows (tokens : List String) : Prop := Continues tokens ∨ StartsWith operandEnds tokens

/-- No value of a field follows: where two equality signs stand, the second begins no expression. -/
theorem fails_value {tokens : List String} (follows : Follows tokens) :
    Fails (.seq (.text "=") (.rule .exp)) tokens := by
  rcases follows with continues | ⟨t, rest, rfl, member⟩
  · exact .of_continues continues (by rfl) (by rfl)
  · by_cases equality : t = "=="
    · subst equality
      intro clean c here
      have clean' : Clean ("=" :: rest) :=
        clean_cons (by decide) fun u member => clean u (List.mem_cons_of_mem _ member)
      have sign : c.rest = "=".toList ++ joined ("=" :: rest) := here
      have noExp : Fails (.rule .exp) ("=" :: rest) := .of_shape (opens_token "=" rest) (by rfl)
      rw [tries_seq_of_some (tries_text sign), skip_settled (settled_joined clean'), noExp clean' _ rfl]
      rfl
    · have rejects : operandEnds.all (fun t => t == "==" ||
          (Shape.token t.toList).rejects (.seq (.text "=") (.rule .exp))) = true := by rfl
      have either := List.all_eq_true.mp rejects t member
      rw [Bool.or_eq_true, beq_iff_eq] at either
      exact .of_shape (opens_token t rest) (either.resolve_left equality)

theorem fails_named_of_name {n : String} (identifier : isIdentifier n = true) {more : List String}
    (follows : Follows more) : Fails (.rule .namedField) (n :: more) :=
  .phrase rfl (.seq_of_matches (matches_name identifier more) (fails_value follows))

structure Var.Reads (v : Var) : Prop where
  opening : ∀ more, Opening (v.tokens ++ more)
  notNamed : ∀ more, Follows more → Fails (.rule .namedField) (v.tokens ++ more)
  read : ∀ more, Fails (.rule .suffix) more → Matches (.rule .var) v.tokens more
    (One fun t => ∃ range ts, t = .phrase .var range ts ∧ Gives Var.erase (varOf range ts) v)

theorem suffixesOf_rows {suffixes : List Suffix} {ts : List (ParseTree Rule)}
    (rows : Rows (fun s => One fun t => ∃ range ts, t = .phrase .suffix range ts ∧
      Gives Suffix.erase (suffixOf range ts) s) suffixes ts) : Gives suffixesErase (suffixesOf ts) suffixes := by
  induction rows with
  | nil => exact ⟨[], by rw [suffixesOf], rfl⟩
  | cons first _ ih =>
    obtain ⟨t, rfl, range, us, rfl, given⟩ := first
    exact given.bind fun x same => ih.bind fun xs same' => .ok (by simp [same, same'])

theorem suffixesTokens_eq (suffixes : List Suffix) :
    (suffixesTokens suffixes).flatten = suffixes.flatMap Suffix.tokens := by
  induction suffixes with
  | nil => rw [suffixesTokens]; rfl
  | cons s suffixes ih => rw [suffixesTokens, List.flatten_cons, ih, List.flatMap_cons]

theorem matches_suffixes {suffixes : List Suffix} (each : ∀ s ∈ suffixes, s.Reads) {more : List String}
    (fails : Fails (.rule .suffix) more) : Matches (.star (.rule .suffix)) (suffixesTokens suffixes).flatten more
      (Rows (fun s => One fun t => ∃ range ts, t = .phrase .suffix range ts ∧
        Gives Suffix.erase (suffixOf range ts) s) suffixes) := by
  rw [suffixesTokens_eq]
  have items : Items (.rule .suffix) (fun _ => True) Suffix.tokens (fun s => One fun t => ∃ range ts,
      t = .phrase .suffix range ts ∧ Gives Suffix.erase (suffixOf range ts) s) suffixes :=
    ⟨fun s member rest _ => (each s member).read rest, fun _ _ _ => trivial⟩
  exact items.star (by decide) trivial fails

theorem rootOf_of_nameOf {t : ParseTree Rule} {n : String} (named : nameOf t = .ok n) : rootOf t = .ok (.name n) := by
  unfold nameOf at named
  split at named
  · cases named
    rw [rootOf]
  · cases named

theorem Var.reads_name {n : String} {suffixes : List Suffix} (identifier : isIdentifier n = true)
    (each : ∀ s ∈ suffixes, s.Reads) (range : Option TextRange) : (Var.mk (.name n) suffixes range).Reads := by
  refine ⟨fun more => .inl ⟨n, _, rfl, identifier⟩, fun more follows => ?_, fun more fails => ?_⟩
  · refine fails_named_of_name identifier ?_
    cases suffixes with
    | nil => exact follows
    | cons s suffixes =>
      show Follows ((suffixesTokens (s :: suffixes)).flatten ++ more)
      rw [suffixesTokens, List.flatten_cons, List.append_assoc]
      exact .inl ((each s List.mem_cons_self).continues _)
  · refine Matches.phrase (r := .var) rfl
      ((Matches.first (matches_name identifier _)).seq (matches_suffixes each fails)) ?_
    rintro range' ts ⟨us, vs, rfl, ⟨t, rfl, named⟩, rows⟩
    refine ⟨range', _, rfl, ?_⟩
    rw [List.singleton_append, varOf, rootOf_of_nameOf named]
    exact (suffixesOf_rows rows).bind fun ss same => .ok (by simp [same])

theorem Var.reads_paren {e : Exp} {s : Suffix} {suffixes : List Suffix} (inner : e.Reads)
    (each : ∀ other ∈ s :: suffixes, other.Reads) (range : Option TextRange) :
    (Var.mk (.paren e) (s :: suffixes) range).Reads := by
  refine ⟨fun more => .inr ⟨_, rfl⟩, fun more _ => .of_shape (opens_token "(" _) (by rfl), fun more fails => ?_⟩
  have further := matches_suffixes (fun other member => each other (List.mem_cons_of_mem _ member)) fails
  have first := (each s List.mem_cons_self).read ((suffixesTokens suffixes).flatten ++ more)
  have root := (matches_parenExp inner (s.tokens ++ ((suffixesTokens suffixes).flatten ++ more))).seq first
  have noName : Fails (.rule .name)
      (("(" :: (e.tokens ++ [")"]) ++ s.tokens) ++ ((suffixesTokens suffixes).flatten ++ more)) :=
    .of_shape (opens_token "(" _) (by rfl)
  rw [tokens, Root.tokens, suffixesTokens, List.flatten_cons, ← List.append_assoc]
  refine Matches.phrase (r := .var) rfl ((Matches.second noName root).seq further) ?_
  rintro range' ts ⟨us, vs, rfl, ⟨ws, xs, rfl, root, t', rfl, range₂, ys, rfl, suffix⟩, rows⟩
  obtain ⟨t, rfl, range₁, u, c, rfl, given⟩ := root
  refine ⟨range', _, rfl, ?_⟩
  have paren : Gives Root.erase (rootOf (.phrase .parenExp range₁ [u, c])) (.paren e) := by
    exact given.bind fun x same => .ok (by simp [same])
  have all : Rows _ (s :: suffixes) ([.phrase .suffix range₂ ys] ++ vs) := .cons ⟨_, rfl, range₂, ys, rfl, suffix⟩ rows
  exact paren.bind fun root same => (suffixesOf_rows all).bind fun ss same' => .ok (by simp [same, same'])

/-! ## Expressions with calls -/

structure Head.Reads (h : Head) : Prop where
  opening : ∀ more, Opening (h.tokens ++ more)
  notNamed : ∀ more, Follows more → Fails (.rule .namedField) (h.tokens ++ more)
  notAssigned : ∀ more, Fails (.rule .suffix) more → Continues more → Fails (.rule .assignStat) (h.tokens ++ more)
  read : ∀ more, Fails (.rule .suffix) more → Matches Grammar.varOrExp h.tokens more
    (One fun t => Gives Head.erase (headOf t) h)

theorem Head.reads_var {v : Var} (reads : v.Reads) : (Head.var v).Reads := by
  refine ⟨reads.opening, reads.notNamed, fun more fails continues => ?_,
    fun more fails => .first ((reads.read more fails).post ?_)⟩
  · have noMore : Fails (.seq (.text ",") (.rule .var)) more :=
      .of_continues continues (by rfl) (by rfl)
    have noValues : Fails (.seq (.text "=") (.rule .exps)) more :=
      .of_continues continues (by rfl) (by rfl)
    have vars : Matches (.rule .vars) v.tokens more (One fun _ => True) :=
      .phrase rfl ((reads.read more fails).seq_nil (.star_nil noMore)) fun _ _ _ => trivial
    exact .phrase rfl (.seq_of_matches vars noValues)
  rintro ts ⟨t, rfl, range, us, rfl, given⟩
  exact ⟨_, rfl, given.bind fun x same => .ok (by simp [same])⟩

theorem Head.reads_paren {e : Exp} (inner : e.Reads) : (Head.paren e).Reads := by
  have noVar (more : List String) (fails : Fails (.rule .suffix) more) :
      Fails (.rule .var) ("(" :: (e.tokens ++ [")"]) ++ more) := by
    refine .phrase rfl (.seq (.alt (.of_shape (opens_token "(" _) (by rfl)) ?_))
    exact .seq_of_matches (matches_parenExp inner more) fails
  refine ⟨fun more => .inr ⟨_, rfl⟩, fun more _ => .of_shape (opens_token "(" _) (by rfl),
    fun more fails _ => .phrase rfl (.seq (.phrase rfl (.seq (noVar more fails)))),
    fun more fails => .second (noVar more fails) ((matches_parenExp inner more).post ?_)⟩
  rintro ts ⟨t, rfl, range, u, c, rfl, given⟩
  exact ⟨_, rfl, given.bind fun x same => .ok (by simp [same])⟩

theorem prefixExpOf_rows {h : Head} {calls : List Call} {us : List (ParseTree Rule)} {t : ParseTree Rule}
    (head : Gives Head.erase (headOf t) h) (rows : Rows (fun c => One fun t => Gives Call.erase (callOf t) c) calls us)
    (range : TextRange) : Gives PrefixExp.erase (prefixExpOf range (t :: us)) ⟨h, calls⟩ := by
  exact head.bind fun x same => (callsOf_rows rows).bind fun cs same' => .ok (by simp [same, same'])

theorem matches_prefixExp {h : Head} {calls : List Call} (head : h.Reads) (each : ∀ c ∈ calls, c.Reads)
    {more : List String} (ends : StartsWith operandEnds more) :
    Matches (.rule .prefixExp) (PrefixExp.mk h calls).tokens more (One fun t => ∃ range ts,
      t = .phrase .prefixExp range ts ∧ Gives PrefixExp.erase (prefixExpOf range ts) ⟨h, calls⟩) := by
  have noCall : Fails (.rule .call) more := .of_first ends (by rfl)
  have noSuffix := fails_suffix each (ends.mono fun _ member => List.mem_cons_of_mem _ member)
  refine Matches.phrase (r := .prefixExp) rfl ((head.read _ noSuffix).seq (matches_calls each noCall)) ?_
  rintro range ts ⟨us, vs, rfl, ⟨t, rfl, given⟩, rows⟩
  exact ⟨range, _, rfl, prefixExpOf_rows given rows range⟩

end LuaLowering.Syntax
