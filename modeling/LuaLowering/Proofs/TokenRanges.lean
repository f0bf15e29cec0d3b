import LuaLowering.Proofs.Tracing
/-!
# Ranges of parse trees

The range of a phrase names the start of its last token, and it is taken from the last tree inside the phrase. That
is right only if the phrase does not end in a token that no tree shows. `Pattern.endings` finds out from a pattern how
it may end; over the rules of Lua, one kind of phrase only may hide its last token (`Rule.endings`). So the trees of a
script lie in a row, each inside the one around it, and their ranges fit the pieces that they were read from
(`trace_readAs`).
-/
namespace LuaLowering

/-! ## How patterns end -/

namespace Peg

/-- How the reading of a pattern ends. -/
inductive Ending where
  /-- Nothing is read. -/
  | silent
  /-- A single token is read, and no tree shows it. -/
  | bare
  /-- The last token is the last token of the last tree. -/
  | exposed
  /-- The last token may be one that no tree shows. -/
  | hidden
  deriving DecidableEq

/-- How two readings end, one after the other. -/
def Ending.followed : Ending → Ending → Ending
  | e, .silent => e
  | .silent, e => e
  | _, .exposed => .exposed
  | _, _ => .hidden

/-- How a phrase ends as a tree: a phrase that is a single token shows this token. -/
def Ending.enclosed : Ending → Ending
  | .bare => .exposed
  | e => e

/-- The endings of one list, each followed by one of the other. -/
def inSequence (es fs : List Ending) : List Ending := es.flatMap fun a => fs.map a.followed

theorem followed_mem_inSequence {es fs : List Ending} {a b : Ending} (first : a ∈ es) (second : b ∈ fs) :
    a.followed b ∈ inSequence es fs :=
  List.mem_flatMap.mpr ⟨a, first, List.mem_map_of_mem second⟩

/-- How one or more readings end that each end in one of the given ways. -/
def repeated (es : List Ending) : List Ending := es ++ inSequence es es

theorem followed_mem_repeated {es : List Ending} {a b : Ending} (before : a ∈ repeated es) (last : b ∈ es) :
    a.followed b ∈ repeated es := by
  have pair {x y : Ending} (first : x ∈ es) (second : y ∈ es) : x.followed y ∈ repeated es :=
    List.mem_append_right _ (followed_mem_inSequence first second)
  rcases List.mem_append.mp before with once | twice
  · exact pair once last
  · obtain ⟨x, first, member⟩ := List.mem_flatMap.mp twice
    obtain ⟨y, second, rfl⟩ := List.mem_map.mp member
    -- of three readings, two that are not silent decide
    have short : (x.followed y).followed b = x.followed y ∨ (x.followed y).followed b = x.followed b ∨
        (x.followed y).followed b = y.followed b := by
      cases x <;> cases y <;> cases b <;> decide
    rcases short with same | same | same <;> rw [same]
    · exact pair first second
    · exact pair first last
    · exact pair second last

variable {ρ : Type}

/-- How a pattern may end, given how its rules may end. -/
def Pattern.endings (rules : ρ → List Ending) : Pattern ρ → List Ending
  | .lit _ => [.bare]
  | .rule r => rules r
  | .seq p q => (inSequence (p.endings rules) (q.endings rules)).eraseDups
  | .alt p q => (p.endings rules ++ q.endings rules).eraseDups
  | .opt p => .silent :: p.endings rules
  | .star p => .silent :: (repeated (p.endings rules)).eraseDups

/-- The last tree that is not empty. -/
def lastFull (ts : List (ParseTree ρ)) : Option (ParseTree ρ) := (ts.filter (! ·.isEmpty)).getLast?

theorem lastFull_append (ts us : List (ParseTree ρ)) : lastFull (ts ++ us) = (lastFull us).or (lastFull ts) := by
  simp [lastFull, List.getLast?_append]

theorem lastToken_eq (start : Nat) (ts : List (ParseTree ρ)) :
    ParseTree.lastToken start ts = (lastFull ts).elim start (·.range.last) := by
  unfold ParseTree.lastToken lastFull
  cases (ts.filter (! ·.isEmpty)).getLast? <;> rfl

end Peg

namespace Syntax
open Peg Lexeme

/-! ## Ranges and pieces -/

/-- The last token among the pieces starts at `last`. -/
def EndsAt (ps : List Piece) (last : Nat) : Prop :=
  ∃ front token gaps, ps = front ++ token :: gaps ∧ token.kind = .token ∧ (∀ gap ∈ gaps, gap.IsGap) ∧ token.start = last

/-- The range starts where a fresh token starts, and from `last` to `stop` there is one token and gaps behind it. -/
structure Fits (ps : List Piece) (range : TextRange) : Prop where
  first : FreshAt ps range.start
  last : ∃ token gaps, token :: gaps <:+: ps ∧ token.kind = .token ∧ (∀ gap ∈ gaps, gap.IsGap) ∧
    token.start = range.last ∧ range.last + Text.byteSize (spelled (token :: gaps)) = range.stop
  ordered : range.start ≤ range.last

/-- The range is one of the places. -/
def IsPlace (places : Nat → Prop) (range : TextRange) : Prop :=
  range.start = range.last ∧ range.last = range.stop ∧ places range.start

/-- What the rule reads begins with a fresh token. -/
def Rule.opens : Rule → Bool
  | .binary _ | .attrib | .closeAttrib => .false
  | _ => .true

/-- What the rule reads may end in an empty block. -/
def Rule.trails : Rule → Bool
  | .block | .elseifClause | .elseClause => .true
  | _ => .false

/-- What is known of the range of a phrase. -/
def Rule.Ranged (places : Nat → Prop) (ps : List Piece) (r : Rule) (range : TextRange) : Prop :=
  Fits ps range ∨ r = .block ∧ IsPlace places range ∨ r = .elseifClause ∨ r.opens = .false

/-- The trees lie one behind the other between two offsets, and empty blocks at one of the places. -/
inductive Row (places : Nat → Prop) (ps : List Piece) : Nat → Nat → List (ParseTree Rule) → Prop where
  | nil {low high : Nat} (le : low ≤ high) : Row places ps low high []
  | token {low high start : Nat} {r : Rule} {text : List Char} {ts : List (ParseTree Rule)} (le : low ≤ start)
    (fits : r.opens = true → Fits ps (ParseTree.tokenRange start text))
    (rest : Row places ps (start + Text.byteSize text) high ts) : Row places ps low high (.token r start text :: ts)
  | phrase {low high : Nat} {r : Rule} {range : TextRange} {children ts : List (ParseTree Rule)}
    (le : low ≤ range.start) (ranged : r.Ranged places ps range)
    (inner : Row places ps range.start range.stop children) (rest : Row places ps range.stop high ts) :
    Row places ps low high (.phrase r range children :: ts)

theorem EndsAt.ne_nil {ps : List Piece} {last : Nat} (ends : EndsAt ps last) : ps ≠ [] := by
  obtain ⟨front, token, gaps, rfl, -⟩ := ends
  simp

theorem EndsAt.append_gaps {ps gaps : List Piece} {last : Nat} (ends : EndsAt ps last)
    (areGaps : ∀ gap ∈ gaps, gap.IsGap) :
    EndsAt (ps ++ gaps) last := by
  obtain ⟨front, token, before, rfl, isToken, areBefore, start⟩ := ends
  exact ⟨front, token, before ++ gaps, by simp, isToken, List.forall_mem_append.mpr ⟨areBefore, areGaps⟩, start⟩

theorem EndsAt.append_left {ps : List Piece} {last : Nat} (ends : EndsAt ps last) (qs : List Piece) :
    EndsAt (qs ++ ps) last := by
  obtain ⟨front, token, gaps, rfl, rest⟩ := ends
  exact ⟨qs ++ front, token, gaps, by simp, rest⟩

theorem Fits.mono {ps qs : List Piece} {range : TextRange} (fits : Fits ps range) (inside : ps <:+: qs) :
    Fits qs range where
  first := by
    obtain ⟨token, member, rest⟩ := fits.first
    exact ⟨token, inside.subset member, rest⟩
  last := by
    obtain ⟨token, gaps, stretch, rest⟩ := fits.last
    exact ⟨token, gaps, stretch.trans inside, rest⟩
  ordered := fits.ordered

namespace Row
variable {places places' : Nat → Prop} {ps qs : List Piece} {low low' middle high high' : Nat}
  {ts us : List (ParseTree Rule)}

theorem mono (row : Row places ps low high ts) (inside : ps <:+: qs) (weaker : ∀ n, places n → places' n) :
    Row places' qs low high ts := by
  induction row with
  | nil le => exact .nil le
  | token le fits rest ih => exact .token le (fun opens => (fits opens).mono inside) ih
  | phrase le ranged inner rest ihInner ihRest =>
    refine .phrase le (ranged.imp (·.mono inside) (.imp_left ?_)) ihInner ihRest
    exact fun ⟨isBlock, start, stop, place⟩ => ⟨isBlock, start, stop, weaker _ place⟩

theorem le (row : Row places ps low high ts) : low ≤ high := by
  induction row with
  | nil le => exact le
  | token le fits rest ih => omega
  | phrase le ranged inner rest ihInner ihRest => omega

theorem weaken (row : Row places ps low high ts) (front : low' ≤ low) (back : high ≤ high') :
    Row places ps low' high' ts := by
  induction row generalizing low' with
  | nil le => exact .nil (by omega)
  | token le fits rest ih => exact .token (by omega) fits (ih (Nat.le_refl _) back)
  | phrase le ranged inner rest _ ihRest => exact .phrase (by omega) ranged inner (ihRest (Nat.le_refl _) back)

theorem append (first : Row places ps low middle ts) (second : Row places ps middle high us) :
    Row places ps low high (ts ++ us) := by
  induction first with
  | nil le => exact second.weaken le (Nat.le_refl _)
  | token le fits rest ih => exact .token le fits (ih second)
  | phrase le ranged inner rest _ ihRest => exact .phrase le ranged inner (ihRest second)

end Row

/-! ## Readings -/

/-- What an ending says about the pieces of a reading that starts at `start` and about its last tree. -/
def EndsAs (start : Nat) (ps : List Piece) (full : Option (ParseTree Rule)) : Ending → Prop
  | .silent => ps = [] ∧ full = none
  | .bare => EndsAt ps start ∧ full = none
  | .exposed => ∃ t, EndsAt ps t.range.last ∧ full = some t
  | .hidden => ps ≠ []

/-- Where empty blocks may lie: at a fresh token, and at the cursor, if a block may be read last. Whether a fresh token
stands there too is known only when more has been read. -/
def Opened (ps : List Piece) (trails : Bool) (d : Cursor) (offset : Nat) : Prop :=
  FreshAt ps offset ∨ trails = true ∧ offset = d.offset ∧ Settled d.rest

/-- Trees read between two cursors, and the pieces that they were read from. -/
structure Reading (script : List Char) (opens trails : Bool) (c : Cursor) (ts : List (ParseTree Rule)) (d : Cursor)
    (e : Ending) (ps : List Piece) : Prop where
  stands : StandsIn script c
  path : Path c ps d
  first : ∀ p ∈ ps.head?, p.kind = .token ∧ (opens = true → Fresh p.text)
  plain : ∀ p ∈ ps, p.kind ≠ .shebang
  row : Row (Opened ps trails d) ps c.offset d.offset ts
  ends : EndsAs c.offset ps (lastFull ts) e

/-- The cursor stands in the script, with neither a blank nor a comment before it. -/
structure Ready (script : List Char) (c : Cursor) : Prop where
  stands : StandsIn script c
  settled : Settled c.rest

theorem ready_skip {script : List Char} {c : Cursor} (stands : StandsIn script c) : Ready script (grammar.skip c) :=
  ⟨(skip_path c).1.standsIn stands, settled_trivia c.rest⟩

namespace Reading
variable {script : List Char} {c d d' : Cursor} {ts us : List (ParseTree Rule)} {a b : Ending} {ps qs : List Piece}
  {opens opens' opens'' trails trails' trails'' : Bool}

theorem nothing (stands : StandsIn script c) : Reading script opens trails c [] c .silent [] :=
  ⟨stands, .nil c, nofun, nofun, .nil (Nat.le_refl _), rfl, rfl⟩

/-- A token that no tree shows. -/
theorem bare {text rest : List Char} (ready : Ready script c) (isToken : IsToken text rest)
    (fresh : opens = true → Fresh text) (here : c.rest = text ++ rest) :
    Reading script opens trails c [] ⟨c.offset + Text.byteSize text, rest⟩ .bare (pieceAt .token c.offset text) := by
  have path := Path.single .token ⟨isToken, here ▸ ready.settled⟩ here
  rw [pieceAt_of_ne_nil isToken.ne_nil]
  exact ⟨ready.stands, path, by simpa using fresh, by simp, .nil (Nat.le_add_right ..),
    ⟨[], _, [], rfl, rfl, nofun, rfl⟩, rfl⟩

theorem weaken (read : Reading script opens trails c ts d a ps) (front : opens' = true → opens = true)
    (back : trails = true → trails' = true) : Reading script opens' trails' c ts d a ps where
  stands := read.stands
  path := read.path
  first p member := (read.first p member).imp_right fun fresh isOpen => fresh (front isOpen)
  plain := read.plain
  row := read.row.mono List.infix_rfl fun _ => .imp_right fun ⟨isLast, rest⟩ => ⟨back isLast, rest⟩
  ends := read.ends

theorem eq_silent_iff (read : Reading script opens trails c ts d a ps) : a = .silent ↔ ps = [] := by
  have ends := read.ends
  cases a with
  | silent => simpa using ends.1
  | bare => simpa using ends.1.ne_nil
  | exposed =>
    obtain ⟨t, ends, -⟩ := ends
    simpa using ends.ne_nil
  | hidden => exact iff_of_false nofun ends

theorem freshAt (read : Reading script true trails c ts d a ps) (some_read : ps ≠ []) : FreshAt ps c.offset := by
  obtain ⟨p, ps, rfl⟩ := List.exists_cons_of_ne_nil some_read
  obtain ⟨isToken, fresh⟩ := read.first p rfl
  exact ⟨p, List.mem_cons_self, isToken, read.path.start_eq, fresh rfl⟩

/-- What is read next shows what stands where an empty block lay last. -/
theorem opened {rs : List Piece} (second : Reading script opens' trails' (grammar.skip d) us d' b qs)
    (follows : trails = true → opens' = true) (last : trails = true → b = .silent → trails'' = true) (inFront : ps ⊆ rs)
    (behind : qs ⊆ rs) {offset : Nat} (here : Opened ps trails d offset) : Opened rs trails'' d' offset := by
  rcases here with fresh | ⟨isLast, rfl, settled⟩
  · exact .inl (fresh.mono inFront)
  rw [skip_settled settled] at second
  by_cases none : qs = []
  · subst none
    cases second.path
    exact .inr ⟨last isLast (second.eq_silent_iff.mpr rfl), rfl, settled⟩
  · obtain rfl := follows isLast
    exact .inl ((second.freshAt none).mono behind)

/-- What is read in two steps ends like the second one, unless that is silent. -/
theorem endsAs_append {gaps : List Piece} {start start' : Nat} {full full' : Option (ParseTree Rule)}
    (first : EndsAs start ps full a) (some_read : ps ≠ []) (areGaps : ∀ gap ∈ gaps, gap.IsGap)
    (second : EndsAs start' qs full' b) : EndsAs start (ps ++ gaps ++ qs) (full'.or full) (a.followed b) := by
  have nonempty : ps ++ gaps ++ qs ≠ [] := by simp [some_read]
  cases b with
  | silent =>
    obtain ⟨rfl, rfl⟩ := second
    rw [List.append_nil, Option.none_or]
    cases a with
    | silent => exact absurd first.1 some_read
    | bare => exact ⟨first.1.append_gaps areGaps, first.2⟩
    | exposed =>
      obtain ⟨t, ends, rfl⟩ := first
      exact ⟨t, ends.append_gaps areGaps, rfl⟩
    | hidden => simpa [EndsAs, Ending.followed] using fun none => absurd none first
  | exposed =>
    obtain ⟨t, ends, rfl⟩ := second
    have shown : a.followed .exposed = .exposed := by cases a <;> rfl
    rw [shown]
    exact ⟨t, ends.append_left _, rfl⟩
  | bare | hidden =>
    cases a with
    | silent => exact absurd first.1 some_read
    | _ => exact nonempty

theorem seq (ready : Ready script c) (first : Reading script opens trails c ts d a ps)
    (second : Reading script opens' trails' (grammar.skip d) us d' b qs) (follows : trails = true → opens' = true)
    (front : opens'' = true → opens = true ∧ (opens' = true ∨ a ≠ .silent))
    (back : trails' = true ∨ trails = true ∧ b = .silent → trails'' = true) :
    Reading script opens'' trails'' c (ts ++ us) d' (a.followed b) (ps ++ gaps d ++ qs) := by
  have before : ps <:+: ps ++ gaps d ++ qs := ⟨[], gaps d ++ qs, by simp⟩
  have behind : qs <:+: ps ++ gaps d ++ qs := ⟨ps ++ gaps d, [], by simp⟩
  have placed offset (here : Opened ps trails d offset) : Opened (ps ++ gaps d ++ qs) trails'' d' offset :=
    second.opened follows (fun isLast silent => back (.inr ⟨isLast, silent⟩)) before.subset behind.subset here
  have placed' offset (here : Opened qs trails' d' offset) : Opened (ps ++ gaps d ++ qs) trails'' d' offset :=
    here.imp (·.mono behind.subset) fun ⟨isLast, rest⟩ => ⟨back (.inl isLast), rest⟩
  by_cases none : ps = []
  · subst none
    obtain rfl := first.eq_silent_iff.mpr rfl
    cases first.path
    rw [skip_settled ready.settled] at second
    rw [gaps_settled ready.settled] at placed placed' ⊢
    refine ⟨first.stands, second.path, fun p member => ?_, second.plain, ?_, ?_⟩
    · obtain ⟨isToken, fresh⟩ := second.first p member
      exact ⟨isToken, fun isOpen => fresh ((front isOpen).2.resolve_right fun other => other rfl)⟩
    · exact (first.row.mono List.nil_infix placed).append (second.row.mono List.infix_rfl placed')
    · have shown : Ending.followed .silent b = b := by cases b <;> rfl
      rw [lastFull_append, first.ends.2, Option.or_none, shown]
      exact second.ends
  · obtain ⟨between, areGaps⟩ := skip_path d
    have le : d.offset ≤ (grammar.skip d).offset := between.offset_eq ▸ Nat.le_add_right ..
    have plain : ∀ p ∈ ps ++ gaps d ++ qs, p.kind ≠ .shebang := List.forall_mem_append.mpr
      ⟨List.forall_mem_append.mpr ⟨first.plain, fun p member => (areGaps p member).kind_ne.2⟩, second.plain⟩
    refine ⟨first.stands, (first.path.trans between).trans second.path, fun p member => ?_, plain, ?_, ?_⟩
    · obtain ⟨isToken, fresh⟩ := first.first p (by simpa [none] using member)
      exact ⟨isToken, fun isOpen => fresh (front isOpen).1⟩
    · exact (first.row.mono before placed).append ((second.row.mono behind placed').weaken le (Nat.le_refl _))
    · rw [lastFull_append]
      exact endsAs_append first.ends none areGaps second.ends

end Reading

/-- What was traced is a reading, and it ends in one of the given ways. -/
def ReadAs (script : List Char) (es : List Ending) (opens trails : Bool) (c : Cursor) (traced : Trace) : Prop :=
  ∃ e ∈ es, Reading script opens trails c traced.1 traced.2.2 e traced.2.1

theorem rounds_readAs {script : List Char} {step : Cursor → Option Trace} {es : List Ending} {opens trails : Bool}
    (each : ∀ c traced, Ready script c → step c = some traced → ReadAs script es opens trails c traced)
    (follows : trails = true → opens = true) {c : Cursor} (ready : Ready script c) (n : Nat) :
    ∀ ts ps d, ReadAs script (repeated es) opens trails c (ts, ps, d) →
      ReadAs script (repeated es) opens trails c (ts ++ (traceRounds step n d).1, ps ++ (traceRounds step n d).2.1,
        (traceRounds step n d).2.2) := by
  induction n with
  | zero =>
    intro ts ps d read
    rwa [traceRounds, List.append_nil, List.append_nil]
  | succ n ih =>
    intro ts ps d read
    rw [traceRounds]
    cases round : step (grammar.skip d) with
    | none => rwa [List.append_nil, List.append_nil]
    | some found =>
      obtain ⟨us, qs, d'⟩ := found
      obtain ⟨e, member, first⟩ := read
      obtain ⟨e', last, second⟩ := each _ _ (ready_skip (first.path.standsIn first.stands)) round
      have more := ih _ _ d' ⟨_, followed_mem_repeated member last,
        first.seq ready second follows (fun isOpen => ⟨isOpen, .inl isOpen⟩) (·.elim id And.left)⟩
      simpa only [List.append_assoc] using more

/-! ## The rules of Lua -/

/-- A block may be empty, and a clause whose block is empty does not show its last token. -/
def Rule.endings : Rule → List Ending
  | .block => [.silent, .exposed]
  | .elseifClause => [.exposed, .hidden]
  | _ => [.exposed]

theorem Rule.eq_block_of_silent {r : Rule} (allowed : .silent ∈ r.endings) : r = .block := by
  cases r with
  | block => rfl
  | _ => simp [endings] at allowed

theorem Rule.eq_elseifClause_of_hidden {r : Rule} (allowed : .hidden ∈ r.endings) : r = .elseifClause := by
  cases r with
  | elseifClause => rfl
  | _ => simp [endings] at allowed

/-- What the pattern reads begins with a fresh token. -/
def opens : Pattern Rule → Bool
  | .lit text => isFresh text
  | .rule r => r.opens
  | .seq p q => opens p && (opens q || !(p.endings Rule.endings).contains .silent)
  | .alt p q => opens p && opens q
  | .opt p | .star p => opens p

/-- What the pattern reads may end in an empty block. -/
def trails : Pattern Rule → Bool
  | .lit _ => false
  | .rule r => r.trails
  | .seq p q => trails q || trails p && (q.endings Rule.endings).contains .silent
  | .alt p q => trails p || trails q
  | .opt p | .star p => trails p

/-- The pattern is made of tokens and inner rules, and where an empty block may lie a fresh token follows. -/
def isInner : Pattern Rule → Bool
  | .lit text => isFixed text
  | .rule r => r.isInner
  | .seq p q => isInner p && isInner q && (!trails p || opens q)
  | .alt p q => isInner p && isInner q
  | .opt p => isInner p
  | .star p => isInner p && (!trails p || opens p)

theorem ReadAs.weaken {script : List Char} {es es' : List Ending} {opens opens' trails trails' : Bool} {c : Cursor}
    {traced : Trace} (read : ReadAs script es opens trails c traced) (ends : es ⊆ es')
    (front : opens' = true → opens = true) (back : trails = true → trails' = true) :
    ReadAs script es' opens' trails' c traced := by
  obtain ⟨e, member, read⟩ := read
  exact ⟨e, ends member, read.weaken front back⟩

theorem tracePattern_readAs {script : List Char} {call : Rule → Cursor → Option Trace}
    (calls : ∀ r, r.isInner = true → ∀ c traced, Ready script c → call r c = some traced →
      ReadAs script r.endings r.opens r.trails c traced)
    (p : Pattern Rule) (inner : isInner p = true) :
    ∀ c traced, Ready script c → tracePattern call p c = some traced →
      ReadAs script (p.endings Rule.endings) (opens p) (trails p) c traced := by
  induction p with
  | lit text =>
    intro c traced ready found
    obtain ⟨_, read, rfl⟩ := Option.map_eq_some_iff.mp found
    obtain ⟨⟨word, rest⟩, scanned, rfl⟩ := Option.map_eq_some_iff.mp read
    obtain rfl := Scanner.reads_literal ⟨_, _, scanned⟩
    have isToken : IsToken word rest := .inl inner
    have here := Scanner.splits_literal _ _ _ _ scanned
    exact ⟨.bare, List.mem_singleton_self _, .bare ready isToken fresh_of_isFresh here⟩
  | rule r => exact calls r inner
  | seq p q first second =>
    intro c traced ready found
    obtain ⟨ts, ps, d⟩ := traced
    simp only [isInner, Bool.and_eq_true, Bool.or_eq_true, Bool.not_eq_true'] at inner
    obtain ⟨⟨innerP, innerQ⟩, follows⟩ := inner
    obtain ⟨us, qs, between, vs, rs, front, back, rfl, rfl⟩ := tracePattern_seq_eq_some found
    obtain ⟨a, memberA, readA⟩ := first innerP c _ ready front
    obtain ⟨b, memberB, readB⟩ := second innerQ _ _ (ready_skip (readA.path.standsIn readA.stands)) back
    refine ⟨_, List.mem_eraseDups.mpr (followed_mem_inSequence memberA memberB), readA.seq ready readB ?_ ?_ ?_⟩
    · exact fun isLast => follows.resolve_left (by simp [isLast])
    · intro isOpen
      simp only [opens, Bool.and_eq_true, Bool.or_eq_true, Bool.not_eq_true', List.contains_eq_mem,
        decide_eq_false_iff_not] at isOpen
      exact isOpen.imp_right (.imp_right fun other silent => other (silent ▸ memberA))
    · rw [trails, Bool.or_eq_true, Bool.and_eq_true, List.contains_iff_mem]
      exact .imp_right (.imp_right fun silent => silent ▸ memberB)
  | alt p q first second =>
    intro c traced ready found
    obtain ⟨innerP, innerQ⟩ := Bool.and_eq_true_iff.mp inner
    rw [tracePattern] at found
    split at found
    · exact (second innerQ c traced ready found).weaken
        (fun e member => List.mem_eraseDups.mpr (List.mem_append_right _ member))
        (fun isOpen => (Bool.and_eq_true_iff.mp isOpen).2) (fun isLast => Bool.or_eq_true_iff.mpr (.inr isLast))
    · exact (first innerP c traced ready found).weaken
        (fun e member => List.mem_eraseDups.mpr (List.mem_append_left _ member))
        (fun isOpen => (Bool.and_eq_true_iff.mp isOpen).1) (fun isLast => Bool.or_eq_true_iff.mpr (.inl isLast))
  | opt p ih =>
    intro c traced ready found
    rw [tracePattern] at found
    split at found
    · cases found
      exact ⟨.silent, List.mem_cons_self, .nothing ready.stands⟩
    · exact (ih inner c traced ready found).weaken (List.subset_cons_self ..) id id
  | star p ih =>
    intro c traced ready found
    simp only [isInner, Bool.and_eq_true, Bool.or_eq_true, Bool.not_eq_true'] at inner
    obtain ⟨inner, follows⟩ := inner
    rw [tracePattern] at found
    cases front : tracePattern call p c with
    | none =>
      rw [front] at found
      cases found
      exact ⟨.silent, List.mem_cons_self, .nothing ready.stands⟩
    | some first =>
      obtain ⟨us, ps, between⟩ := first
      rw [front] at found
      cases found
      have once : ReadAs script (repeated (p.endings Rule.endings)) (opens p) (trails p) c (us, ps, between) :=
        (ih inner c _ ready front).weaken (List.subset_append_left _ _) id id
      have rounds := rounds_readAs (ih inner) (fun isLast => follows.resolve_left (by simp [isLast])) ready
        (between.rest.length + 1) us ps between once
      exact rounds.weaken (fun e last => List.mem_cons_of_mem _ (List.mem_eraseDups.mpr last)) id id

/-- A phrase of an inner rule begins and ends as its rule may begin and end. -/
theorem isInner_of_phrase {r : Rule} {p : Pattern Rule} (body : grammar.body r = .phrase p) (inner : r.isInner = true)
    (other : r ≠ .number) :
    isInner p = true ∧ (∀ e ∈ p.endings Rule.endings, e.enclosed ∈ r.endings) ∧ (r.opens = true → opens p = true) ∧
      (trails p = true → r.trails = true) := by
  cases r <;> cases body
  case chunk => cases inner
  case number => cases other rfl
  all_goals decide

namespace Reading
variable {script : List Char} {c d : Cursor} {ts : List (ParseTree Rule)} {e : Ending} {ps : List Piece}
  {opens trails : Bool}

theorem offset_lt (read : Reading script opens trails c ts d e ps) (some_read : ps ≠ []) : c.offset < d.offset := by
  have first := read.first
  cases read.path with
  | nil => cases some_read rfl
  | cons reads tail =>
    obtain ⟨rfl, -⟩ := first _ rfl
    have positive := Text.byteSize_pos reads.1.ne_nil
    have further := tail.offset_eq
    simp only at further ⊢
    omega

theorem fits (read : Reading script true trails c ts d e ps) {last : Nat} (ends : EndsAt ps last) :
    Fits ps ⟨c.offset, last, d.offset⟩ := by
  have first := read.freshAt ends.ne_nil
  obtain ⟨front, token, gaps, rfl, isToken, areGaps, rfl⟩ := ends
  obtain ⟨middle, before, after⟩ := read.path.split
  have start := after.start_eq
  refine ⟨first, ⟨token, gaps, ⟨front, [], by simp⟩, isToken, areGaps, rfl, ?_⟩, ?_⟩
  · rw [start, after.offset_eq]
  · rw [start, before.offset_eq]
    exact Nat.le_add_right ..

/-- The tree of a phrase, from the trees inside it. -/
theorem phrase {r : Rule} (ready : Ready script c) (read : Reading script opens trails c ts d e ps)
    (allowed : e.enclosed ∈ r.endings) (front : r.opens = true → opens = true)
    (back : trails = true → r.trails = true) :
    Reading script r.opens r.trails c [.phrase r ⟨c.offset, ParseTree.lastToken c.offset ts, d.offset⟩ ts] d e.enclosed
      ps := by
  generalize range_eq : (⟨c.offset, ParseTree.lastToken c.offset ts, d.offset⟩ : TextRange) = range
  have start : range.start = c.offset := by rw [← range_eq]
  have stop : range.stop = d.offset := by rw [← range_eq]
  replace read := read.weaken front back
  have row (ranged : r.Ranged (Opened ps r.trails d) ps range) :
      Row (Opened ps r.trails d) ps c.offset d.offset [.phrase r range ts] := by
    refine .phrase start.ge ranged ?_ (.nil stop.le)
    rw [start, stop]
    exact read.row
  have full (some_read : ps ≠ []) : lastFull [ParseTree.phrase r range ts] = some (.phrase r range ts) := by
    have further := read.offset_lt some_read
    have notEmpty : ¬ range.start = range.stop := by omega
    simp [lastFull, ParseTree.isEmpty, ParseTree.range, notEmpty]
  have shown (ends : EndsAt ps (ParseTree.lastToken c.offset ts)) :
      Reading script r.opens r.trails c [.phrase r range ts] d .exposed ps := by
    refine ⟨read.stands, read.path, read.first, read.plain, row ?_, _, range_eq ▸ ends, full ends.ne_nil⟩
    cases isOpen : r.opens with
    | false => exact .inr (.inr (.inr isOpen))
    | true =>
      rw [isOpen] at read
      exact .inl (range_eq ▸ read.fits ends)
  have ends := read.ends
  cases e with
  | silent =>
    obtain ⟨rfl, none⟩ := ends
    have last : range.last = c.offset := by rw [← range_eq, lastToken_eq, none]; rfl
    have isBlock := Rule.eq_block_of_silent allowed
    cases read.path
    have isPlace : IsPlace (Opened [] r.trails c) range :=
      ⟨by omega, by omega, .inr ⟨isBlock ▸ rfl, start, ready.settled⟩⟩
    refine ⟨read.stands, .nil c, nofun, nofun, row (.inr (.inl ⟨isBlock, isPlace⟩)), rfl, ?_⟩
    simp [lastFull, ParseTree.isEmpty, ParseTree.range, start, stop]
  | bare =>
    refine shown ?_
    rw [lastToken_eq, ends.2]
    exact ends.1
  | exposed =>
    refine shown ?_
    obtain ⟨t, ends, some⟩ := ends
    rw [lastToken_eq, some]
    exact ends
  | hidden =>
    have isClause := Rule.eq_elseifClause_of_hidden allowed
    exact ⟨read.stands, read.path, read.first, read.plain, row (.inr (.inr (.inl isClause))), ends⟩

theorem token (r : Rule) {text rest : List Char} (ready : Ready script c) (isToken : IsToken text rest)
    (fresh : opens = true → Fresh text) (isOpen : r.opens = true → opens = true) (here : c.rest = text ++ rest) :
    Reading script opens trails c [.token r c.offset text] ⟨c.offset + Text.byteSize text, rest⟩ .exposed
      (pieceAt .token c.offset text) := by
  have read : Reading script opens trails .. := bare ready isToken fresh here
  have positive := Text.byteSize_pos isToken.ne_nil
  refine ⟨ready.stands, read.path, read.first, read.plain,
    .token (Nat.le_refl _) (fun shown => ?_) (.nil (Nat.le_refl _)), .token r c.offset text, read.ends.1, ?_⟩
  · rw [isOpen shown] at read
    exact read.fits read.ends.1
  · have notEmpty : ¬ Text.byteSize text = 0 := by omega
    simp [lastFull, ParseTree.isEmpty, ParseTree.range, ParseTree.tokenRange, notEmpty]

end Reading

/-- The pattern gives the token that the scanner reads. -/
def ScansAs (call : Rule → Cursor → Option Trace) (p : Pattern Rule) (scan : Scanner) : Prop :=
  ∀ c, (scan c.rest = none ∧ tracePattern call p c = none) ∨
    ∃ r text rest, scan c.rest = some (text, rest) ∧ tracePattern call p c =
      some ([.token r c.offset text], pieceAt .token c.offset text, ⟨c.offset + Text.byteSize text, rest⟩)

theorem scansAs_rule {r : Rule} {scan : Scanner} (body : grammar.body r = .token scan) (kind : r.pieceKind = .token)
    (depth : Nat) : ScansAs (trace (depth + 1)) (.rule r) scan := by
  intro c
  rw [tracePattern, trace, body]
  cases found : scan c.rest with
  | none => exact .inl ⟨rfl, by simp [Cursor.read, found]⟩
  | some pair => exact .inr ⟨r, pair.1, pair.2, rfl, by simp [Cursor.read, found, kind]⟩

theorem ScansAs.alt {call : Rule → Cursor → Option Trace} {p q : Pattern Rule} {a b : Scanner}
    (first : ScansAs call p a) (second : ScansAs call q b) : ScansAs call (.alt p q) (.alt a b) := by
  intro c
  rw [tracePattern, Scanner.alt]
  rcases first c with ⟨none, fails⟩ | ⟨r, text, rest, found, gives⟩
  · rw [none, fails]
    exact second c
  · rw [found, gives]
    exact .inr ⟨r, text, rest, rfl, rfl⟩

theorem scan_secondSign {scan : Scanner} (listed : scan ∈ scanners) {c : Char} (second : c ∈ secondSigns)
    (s : List Char) : scan (c :: s) = none := by
  simp only [scanners, secondSigns, List.mem_cons, List.not_mem_nil, or_false] at listed second
  rcases listed with rfl | rfl | rfl | rfl <;> rcases second with rfl | rfl | rfl | rfl <;> rfl

/-- No name, numeral or string begins with the second half of a pair of signs. -/
theorem fresh_of_scanners {scan : Scanner} (listed : scan ∈ scanners) {text rest : List Char}
    (settled : Settled (text ++ rest)) (found : scan (text ++ rest) = some (text, rest)) : Fresh text := by
  cases text with
  | nil => exact nofun
  | cons c text =>
    rintro _ ⟨⟩
    constructor
    · have stops := stops_dropWhile isBlank (c :: text ++ rest)
      rw [settled.1] at stops
      exact stops c rfl
    · intro second
      cases (scan_secondSign listed second _).symm.trans found

theorem fresh_of_body {r : Rule} {scan : Scanner} (body : grammar.body r = .token scan) (inner : r.isInner = true)
    {s text rest : List Char} (settled : Settled s) (found : scan s = some (text, rest)) (isOpen : r.opens = true) :
    Fresh text := by
  have here := splits_token body s text rest found
  have reads : scan.Reads text := ⟨s, rest, found⟩
  cases r <;> cases body
  case finish | shebang | hexFloat | hexInt | float | int => cases inner
  case binary | closeAttrib => cases isOpen
  case nil | false | true | endWord =>
    rw [reads_word reads]
    exact fresh_of_isFresh rfl
  case unary op =>
    cases op with
    | not => exact reads_word reads ▸ fresh_of_isFresh rfl
    | _ => exact Scanner.reads_literal reads ▸ fresh_of_isFresh rfl
  case longString | quotedString | name => exact fresh_of_scanners (by simp [scanners]) (here ▸ settled) (here ▸ found)
  all_goals
    rw [Scanner.reads_literal reads]
    exact fresh_of_isFresh rfl

theorem splits_numeral : Scanner.Splits numeral :=
  (splits_token (r := .hexFloat) rfl).alt ((splits_token (r := .hexInt) rfl).alt
    ((splits_token (r := .float) rfl).alt (splits_token (r := .int) rfl)))

theorem number_eq_some {p : Pattern Rule} (body : grammar.body .number = .phrase p) {depth : Nat} {c : Cursor}
    {traced : Trace} (found : tracePattern (trace depth) p c = some traced) :
    ∃ r text rest, numeral c.rest = some (text, rest) ∧
      traced = ([.token r c.offset text], pieceAt .token c.offset text, ⟨c.offset + Text.byteSize text, rest⟩) := by
  cases body
  cases depth with
  | zero => cases found
  | succ depth =>
    have scans : ScansAs (trace (depth + 1)) _ numeral :=
      (scansAs_rule (r := .hexFloat) rfl rfl depth).alt ((scansAs_rule (r := .hexInt) rfl rfl depth).alt
        ((scansAs_rule (r := .float) rfl rfl depth).alt (scansAs_rule (r := .int) rfl rfl depth)))
    rcases scans c with ⟨-, fails⟩ | ⟨r, text, rest, scanned, gives⟩
    · cases fails.symm.trans found
    · exact ⟨r, text, rest, scanned, Option.some.inj (found.symm.trans gives)⟩

theorem number_reading {script : List Char} {p : Pattern Rule} (body : grammar.body .number = .phrase p) {depth : Nat}
    {c : Cursor} {traced : Trace} (ready : Ready script c) (found : tracePattern (trace depth) p c = some traced) :
    Reading script true false c traced.1 traced.2.2 .exposed traced.2.1 := by
  obtain ⟨r, text, rest, scanned, rfl⟩ := number_eq_some body found
  have here := splits_numeral _ _ _ scanned
  rw [here] at scanned
  have listed : numeral ∈ scanners := by simp [scanners]
  have fresh := fresh_of_scanners listed (here ▸ ready.settled) scanned
  exact .token r ready (.inr ⟨numeral, listed, scanned⟩) (fun _ => fresh) (fun _ => rfl) here

/-- What an inner rule reads where neither a blank nor a comment stands in front. -/
theorem trace_readAs {script : List Char} (depth : Nat) : ∀ r, r.isInner = true → ∀ c traced, Ready script c →
    trace depth r c = some traced → ReadAs script r.endings r.opens r.trails c traced := by
  induction depth with
  | zero =>
    intro r inner c traced ready found
    cases found
  | succ depth ih =>
    intro r inner c traced ready found
    cases body : grammar.body r with
    | token scan =>
      obtain ⟨ts, ps, d⟩ := traced
      obtain ⟨text, rest, scanned, rfl, rfl, rfl⟩ := trace_token_eq_some body found
      have shown : .exposed ∈ r.endings := by cases r <;> simp [Rule.endings]
      have kind : r.pieceKind = .token := by cases r <;> first | rfl | cases inner
      have isToken := isToken_of_body body inner scanned
      have here := splits_token body _ _ _ scanned
      have fresh := fresh_of_body body inner ready.settled scanned
      rw [kind]
      exact ⟨.exposed, shown, .token r ready isToken fresh id here⟩
    | phrase p =>
      rw [trace, body] at found
      obtain ⟨inside, matched, rfl⟩ := Option.map_eq_some_iff.mp found
      by_cases isNumber : r = .number
      · subst isNumber
        have read := number_reading body ready matched
        have allowed : Ending.exposed ∈ Rule.number.endings := List.mem_singleton_self _
        exact ⟨.exposed, allowed, read.phrase ready allowed (fun _ => rfl) id⟩
      · obtain ⟨innerBody, allowed, front, back⟩ := isInner_of_phrase body inner isNumber
        obtain ⟨e, member, read⟩ := tracePattern_readAs ih p innerBody c inside ready matched
        exact ⟨e.enclosed, allowed e member, read.phrase ready (allowed e member) front back⟩

end Syntax
end LuaLowering
