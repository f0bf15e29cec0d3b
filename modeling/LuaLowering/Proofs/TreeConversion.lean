import LuaLowering.Proofs.Operands
import LuaLowering.Proofs.Placement
import LuaLowering.Proofs.TwoReadings
/-!
# Conversion of trees that are the same but for places

Trees that are the same but for places (`ParseTree.Alike`) give chunks that are the same up to ranges
(`chunkOf_mirrors`). `Mirrors` follows two conversions from left to right, with a rule for each way in which they go on,
and every tree is `Mirrored`, whatever is made of it (`throughout_mirrored`).
-/
namespace LuaLowering

theorem Peg.ParseTree.Alike.symm {ρ : Type} {t t' : Peg.ParseTree ρ} (alike : t.Alike t') : t'.Alike t := by
  suffices throughout : t.Throughout fun t => ∀ t', t.Alike t' → t'.Alike t from throughout.here t' alike
  apply throughout_of_step
  intro t inner t' alike
  cases alike with
  | token r start start' text => exact .token r start' start text
  | phrase r range range' row =>
    refine .phrase r range' range ?_
    rw [children] at inner
    induction row with
    | nil => exact .nil
    | cons first _ ih =>
      obtain ⟨here, later⟩ := List.forall_mem_cons.mp inner
      exact .cons (here.here _ first) (ih later)

namespace Syntax
open Peg Lexeme

/-! ## Two conversions -/

/-- Where the first conversion succeeds, so does the second, with the same result up to ranges. -/
def Mirrors {α : Type} (erase : α → α) (out out' : FromTree α) : Prop := ∀ a, out = .ok a → Gives erase out' a

section
variable {α β : Type} {erase : α → α} {erase' : β → β} {out out' : FromTree α} {next next' : α → FromTree β} {a a' : α}

theorem Mirrors.error {e : TreeError} : Mirrors erase (.error e) out := by
  rintro a ⟨⟩

theorem Mirrors.ok (same : erase a' = erase a) : Mirrors erase (.ok a) (.ok a') := by
  rintro _ ⟨⟩
  exact .ok same

theorem Mirrors.bind (first : Mirrors erase out out')
    (second : ∀ a a', erase a' = erase a → Mirrors erase' (next a) (next' a')) :
    Mirrors erase' (out >>= next) (out' >>= next') := by
  intro b made
  obtain ⟨a, found, rest⟩ := bind_ok made
  obtain ⟨a', found', same⟩ := first a found
  rw [found']
  exact second a a' same b rest

/-- Something without ranges is made, as a name. -/
theorem Mirrors.bind_id (first : Mirrors id out out') (second : ∀ a, Mirrors erase' (next a) (next' a)) :
    Mirrors erase' (out >>= next) (out' >>= next') := by
  refine first.bind fun a a' same => ?_
  cases same
  exact second a

end

/-! ## Parts without ranges -/

section
variable {t t' : ParseTree Rule} {ts ts' : List (ParseTree Rule)}

theorem nameOf_mirrors (alike : t.Alike t') : Mirrors id (nameOf t) (nameOf t') := by
  unfold nameOf
  split
  · cases alike
    exact .ok rfl
  · exact .error

theorem mapM_mirrors {α : Type} {make : ParseTree Rule → FromTree α}
    (each : ∀ {t t' : ParseTree Rule}, t.Alike t' → Mirrors id (make t) (make t'))
    (row : List.Forall₂ ParseTree.Alike ts ts') : Mirrors id (ts.mapM make) (ts'.mapM make) := by
  induction row with
  | nil => exact .ok rfl
  | cons first _ ih =>
    rw [List.mapM_cons, List.mapM_cons]
    exact .bind_id (each first) fun a => .bind_id ih fun as => .ok rfl

theorem attribNameOf_mirrors (alike : t.Alike t') : Mirrors id (attribNameOf t) (attribNameOf t') := by
  unfold attribNameOf
  split
  · rcases alike with _ | ⟨_, _, _, _ | ⟨name, _ | _⟩⟩
    exact .bind_id (nameOf_mirrors name) fun n => .ok rfl
  · rcases alike with _ | ⟨_, _, _, _ | ⟨name, _ | ⟨_ | ⟨_, _, _, _ | ⟨attrib, _ | ⟨_, _ | _⟩⟩⟩, _ | _⟩⟩⟩
    exact .bind_id (nameOf_mirrors name) fun n => .bind_id (nameOf_mirrors attrib) fun a => .ok rfl
  · exact .error

theorem funcNameOf_mirrors (row : List.Forall₂ ParseTree.Alike ts ts') :
    Mirrors id (funcNameOf ts) (funcNameOf ts') := by
  induction row with
  | nil => exact .ok rfl
  | @cons t t' ts ts' first row ih =>
    rw [funcNameOf.eq_def]
    split
    next same => cases same
    next same =>
      cases same
      rcases first with _ | ⟨_, _, _, _ | ⟨name, _ | _⟩⟩
      exact .bind_id (nameOf_mirrors name) fun n => .ok rfl
    next other same =>
      cases same
      rw [funcNameOf]
      · exact .bind_id (nameOf_mirrors first) fun n => .bind_id ih fun rest => .ok rfl
      -- the tree on the other side is no method either
      · rintro range m rfl
        rcases first with _ | ⟨_, _, _, _ | ⟨_, _ | _⟩⟩
        exact other _ _ rfl

theorem paramsOf_mirrors (row : List.Forall₂ ParseTree.Alike ts ts') : Mirrors id (paramsOf ts) (paramsOf ts') := by
  rw [paramsOf.eq_def]
  split
  · rcases row with _ | ⟨_ | ⟨_, _, _, names⟩, _ | _⟩
    exact .bind_id (mapM_mirrors nameOf_mirrors names) fun ns => .ok rfl
  · rcases row with _ | ⟨_ | ⟨_, _, _, names⟩, _ | ⟨_ | _, _ | _⟩⟩
    exact .bind_id (mapM_mirrors nameOf_mirrors names) fun ns => .ok rfl
  next closed further =>
    -- no names stand on the other side either
    rw [paramsOf]
    · exact .ok rfl
    · rintro range ns rfl
      rcases row with _ | ⟨_ | _, _ | _⟩
      exact closed _ _ rfl
    · rintro range ns start text rfl
      rcases row with _ | ⟨_ | _, _ | ⟨_ | _, _ | _⟩⟩
      exact further _ _ _ _ rfl

theorem numeralOf_mirrors (alike : t.Alike t') : Mirrors id (numeralOf t) (numeralOf t') := by
  unfold numeralOf
  split
  case h_5 => exact .error
  all_goals
    cases alike
    exact .ok rfl

theorem stringOf_mirrors (range range' : TextRange) (row : List.Forall₂ ParseTree.Alike ts ts') :
    Mirrors id (stringOf range ts) (stringOf range' ts') := by
  unfold stringOf
  split
  · rcases row with _ | ⟨_ | _, _ | _⟩
    exact .ok rfl
  next text =>
    rcases row with _ | ⟨_ | _, _ | _⟩
    dsimp only
    cases QuotedString.decode (QuotedString.body text) with
    | ok value => exact .ok rfl
    | error e => exact .error
  · exact .error

end

/-! ## Nodes of each kind -/

/-- Whatever is made of a tree, the same is made of a tree that is the same but for places. -/
structure Mirrored (t : ParseTree Rule) : Prop where
  exp : ∀ {t'}, t.Alike t' → Mirrors Exp.erase (expOf t) (expOf t')
  primary : ∀ {t'}, t.Alike t' → Mirrors Exp.erase (primaryOf t) (primaryOf t')
  head : ∀ {t'}, t.Alike t' → Mirrors Head.erase (headOf t) (headOf t')
  root : ∀ {t'}, t.Alike t' → Mirrors Root.erase (rootOf t) (rootOf t')
  access : ∀ {t'}, t.Alike t' → Mirrors Access.erase (accessOf t) (accessOf t')
  call : ∀ {t'}, t.Alike t' → Mirrors Call.erase (callOf t) (callOf t')
  args : ∀ {t'}, t.Alike t' → Mirrors Args.erase (argsOf t) (argsOf t')
  field : ∀ {t'}, t.Alike t' → Mirrors Field.erase (fieldOf t) (fieldOf t')
  funcBody : ∀ {t'}, t.Alike t' → Mirrors FuncBody.erase (funcBodyOf t) (funcBodyOf t')
  block : ∀ {t'}, t.Alike t' → Mirrors Block.erase (blockOf t) (blockOf t')
  stat : ∀ {t'}, t.Alike t' → Mirrors Stat.erase (statOf t) (statOf t')

section Lists
variable {ts ts' : List (ParseTree Rule)} (range range' : TextRange)

theorem expsOf_mirrors (inner : ∀ t ∈ ts, t.Throughout Mirrored) (row : List.Forall₂ ParseTree.Alike ts ts') :
    Mirrors expsErase (expsOf ts) (expsOf ts') := by
  induction row with
  | nil => exact .ok rfl
  | cons first _ ih =>
    obtain ⟨here, later⟩ := List.forall_mem_cons.mp inner
    exact .bind (here.here.exp first) fun e e' same => .bind (ih later) fun es es' same' => .ok (by simp [same, same'])

theorem flatExpOf_mirrors {ts ts' : List (ParseTree Rule)} (inner : ∀ t ∈ ts, t.Throughout Mirrored)
    (row : List.Forall₂ ParseTree.Alike ts ts') :
    Mirrors FlatExp.erase (flatExpOf range ts) (flatExpOf range' ts') := by
  rw [flatExpOf.eq_def]
  split
  next op start text ts =>
    rcases row with _ | ⟨_ | _, row⟩
    refine .bind (flatExpOf_mirrors (List.forall_mem_cons.mp inner).2 row) fun e e' same => .ok ?_
    simp_all [FlatExp.erase, Operand.erase]
  next t other =>
    rcases row with _ | ⟨first, _ | _⟩
    rw [flatExpOf]
    · refine .bind ((inner t (by simp)).here.primary first) fun e e' same => .ok ?_
      simp [FlatExp.erase, Operand.erase, same]
    · rintro op start text rfl
      cases first
      exact other _ _ _ rfl
  next t op start text ts other =>
    rcases row with _ | ⟨first, _ | ⟨_ | _, row⟩⟩
    rw [flatExpOf]
    · have rest := flatExpOf_mirrors (fun u (member : u ∈ ts) => inner u (by simp [member])) row
      refine .bind ((inner t (by simp)).here.primary first) fun e e' same => .bind rest fun more more' same' => .ok ?_
      simp_all [FlatExp.erase, Operand.erase]
    · rintro op start text rfl
      cases first
      exact other _ _ _ rfl
  · exact .error
termination_by ts.length

theorem callsOf_mirrors (inner : ∀ t ∈ ts, t.Throughout Mirrored) (row : List.Forall₂ ParseTree.Alike ts ts') :
    Mirrors callsErase (callsOf ts) (callsOf ts') := by
  induction row with
  | nil => exact .ok rfl
  | cons first _ ih =>
    obtain ⟨here, later⟩ := List.forall_mem_cons.mp inner
    exact .bind (here.here.call first) fun c c' same => .bind (ih later) fun cs cs' same' => .ok (by simp [same, same'])

theorem prefixExpOf_mirrors (inner : ∀ t ∈ ts, t.Throughout Mirrored) (row : List.Forall₂ ParseTree.Alike ts ts') :
    Mirrors PrefixExp.erase (prefixExpOf range ts) (prefixExpOf range' ts') := by
  cases row with
  | nil => exact .error
  | cons first row =>
    obtain ⟨here, later⟩ := List.forall_mem_cons.mp inner
    exact .bind (here.here.head first) fun head head' same => .bind (callsOf_mirrors later row) fun cs cs' same' =>
      .ok (by simp [same, same'])

theorem suffixOf_mirrors (inner : ∀ t ∈ ts, t.Throughout Mirrored) (row : List.Forall₂ ParseTree.Alike ts ts') :
    Mirrors Suffix.erase (suffixOf range ts) (suffixOf range' ts') := by
  induction row with
  | nil => exact .error
  | cons first row ih =>
    obtain ⟨here, later⟩ := List.forall_mem_cons.mp inner
    cases row with
    | nil => exact .bind (here.here.access first) fun access access' same => .ok (by simp [same])
    | cons second row =>
      refine .bind (here.here.call first) fun c c' same => .bind (ih later) fun s s' same' => .ok ?_
      obtain ⟨calls, access⟩ := s
      obtain ⟨calls', access'⟩ := s'
      simp_all

theorem suffixesOf_mirrors (inner : ∀ t ∈ ts, t.Throughout Mirrored) (row : List.Forall₂ ParseTree.Alike ts ts') :
    Mirrors suffixesErase (suffixesOf ts) (suffixesOf ts') := by
  induction row with
  | nil => exact .ok rfl
  | cons first row ih =>
    obtain ⟨here, later⟩ := List.forall_mem_cons.mp inner
    rw [suffixesOf.eq_def]
    split
    next same => cases same
    next same =>
      cases same
      rcases first with _ | ⟨_, _, _, parts⟩
      exact .bind (suffixOf_mirrors _ _ here.inner parts) fun s s' same => .bind (ih later) fun ss ss' same' =>
        .ok (by simp [same, same'])
    · exact .error

theorem varOf_mirrors (inner : ∀ t ∈ ts, t.Throughout Mirrored) (row : List.Forall₂ ParseTree.Alike ts ts') :
    Mirrors Var.erase (varOf range ts) (varOf range' ts') := by
  cases row with
  | nil => exact .error
  | cons first row =>
    obtain ⟨here, later⟩ := List.forall_mem_cons.mp inner
    exact .bind (here.here.root first) fun root root' same => .bind (suffixesOf_mirrors later row) fun ss ss' same' =>
      .ok (by simp [same, same'])

theorem varsOf_mirrors (inner : ∀ t ∈ ts, t.Throughout Mirrored) (row : List.Forall₂ ParseTree.Alike ts ts') :
    Mirrors varsErase (varsOf ts) (varsOf ts') := by
  induction row with
  | nil => exact .ok rfl
  | cons first row ih =>
    obtain ⟨here, later⟩ := List.forall_mem_cons.mp inner
    rw [varsOf.eq_def]
    split
    next same => cases same
    next same =>
      cases same
      rcases first with _ | ⟨_, _, _, parts⟩
      exact .bind (varOf_mirrors _ _ here.inner parts) fun v v' same => .bind (ih later) fun vs vs' same' =>
        .ok (by simp [same, same'])
    · exact .error

theorem fieldsOf_mirrors (inner : ∀ t ∈ ts, t.Throughout Mirrored) (row : List.Forall₂ ParseTree.Alike ts ts') :
    Mirrors fieldsErase (fieldsOf ts) (fieldsOf ts') := by
  induction row with
  | nil => exact .ok rfl
  | cons first row ih =>
    obtain ⟨here, later⟩ := List.forall_mem_cons.mp inner
    rw [fieldsOf.eq_def]
    split
    next same => cases same
    next same =>
      cases same
      cases first
      exact .ok rfl
    next other same =>
      cases same
      rw [fieldsOf]
      · exact .bind (here.here.field first) fun f f' same => .bind (ih later) fun fs fs' same' =>
          .ok (by simp [same, same'])
      · rintro start text rfl
        cases first
        exact other _ _ rfl

theorem retValuesOf_mirrors (inner : ∀ t ∈ ts, t.Throughout Mirrored) (row : List.Forall₂ ParseTree.Alike ts ts') :
    Mirrors expsErase (retValuesOf ts) (retValuesOf ts') := by
  rw [retValuesOf.eq_def]
  split
  · rcases row with _ | ⟨_ | ⟨_, _, _, exps⟩, _⟩
    exact expsOf_mirrors (List.forall_mem_cons.mp inner).1.inner exps
  next other =>
    rw [retValuesOf]
    · exact .ok rfl
    · rintro range es rest rfl
      rcases row with _ | ⟨_ | _, _⟩
      exact other _ _ _ rfl

theorem statsOf_mirrors (inner : ∀ t ∈ ts, t.Throughout Mirrored) (row : List.Forall₂ ParseTree.Alike ts ts') :
    Mirrors (fun p => (statsErase p.1, p.2.map Ret.erase)) (statsOf ts) (statsOf ts') := by
  induction row with
  | nil => exact .ok rfl
  | cons first row ih =>
    obtain ⟨here, later⟩ := List.forall_mem_cons.mp inner
    rw [statsOf.eq_def]
    split
    next same => cases same
    next same =>
      cases same
      cases first
      exact ih later
    next same =>
      cases same
      rcases first with _ | ⟨_, _, _, values⟩
      cases row
      exact .bind (retValuesOf_mirrors here.inner values) fun es es' same => .ok (by simp [same])
    next noSemicolon noReturn same =>
      cases same
      -- what is neither `;` nor the last `return` here is neither there
      rw [statsOf]
      · refine .bind (here.here.stat first) fun s s' same => .bind (ih later) fun more more' same' => .ok ?_
        simp_all
      · rintro start text rfl
        cases first
        exact noSemicolon _ _ rfl
      · rintro range us rfl rfl
        cases first
        cases row
        exact noReturn _ _ rfl rfl

theorem clausesOf_mirrors (inner : ∀ t ∈ ts, t.Throughout Mirrored) (row : List.Forall₂ ParseTree.Alike ts ts') :
    Mirrors (fun p => (clausesErase p.1, p.2.map Block.erase)) (clausesOf range ts) (clausesOf range' ts') := by
  induction row with
  | nil => exact .error
  | cons first row ih =>
    obtain ⟨here, later⟩ := List.forall_mem_cons.mp inner
    rw [clausesOf.eq_def]
    split
    next same =>
      cases same
      cases first
      cases row
      exact .ok rfl
    next same =>
      cases same
      rcases first with _ | ⟨_, _, _, _ | ⟨body, _ | _⟩⟩
      rcases row with _ | ⟨_ | _, _ | _⟩
      exact .bind ((here.inner _ (.head _)).here.block body) fun b b' same => .ok (by simp [same])
    next same =>
      cases same
      rcases first with _ | ⟨_, _, _, _ | ⟨cond, _ | ⟨body, _ | _⟩⟩⟩
      refine .bind ((here.inner _ (.head _)).here.exp cond) fun c c' same =>
        .bind ((here.inner _ (.tail _ (.head _))).here.block body) fun b b' same' =>
        .bind (ih later) fun more more' same'' => .ok ?_
      simp_all
    · exact .error

end Lists

section Nodes
variable {t t' : ParseTree Rule} (inner : ∀ u ∈ t.children, u.Throughout Mirrored) (alike : t.Alike t')
include inner alike

theorem expOf_mirrors : Mirrors Exp.erase (expOf t) (expOf t') := by
  rw [expOf.eq_def]
  split
  · rcases alike with _ | ⟨_, _, _, row⟩
    refine .bind (flatExpOf_mirrors _ _ inner row) fun e e' same => .ok ?_
    rw [FlatExp.erase_assemble, FlatExp.erase_assemble, same]
  · exact .error

theorem primaryOf_mirrors : Mirrors Exp.erase (primaryOf t) (primaryOf t') := by
  rw [primaryOf.eq_def]
  split
  case h_5 =>
    rcases alike with _ | ⟨_, _, _, _ | ⟨numeral, _ | _⟩⟩
    exact .bind_id (numeralOf_mirrors numeral) fun n => .ok (by simp)
  case h_6 =>
    rcases alike with _ | ⟨_, _, _, row⟩
    exact .bind_id (stringOf_mirrors _ _ row) fun s => .ok (by simp)
  case h_7 =>
    rcases alike with _ | ⟨_, _, _, _ | ⟨body, _ | _⟩⟩
    exact .bind ((inner _ (.head _)).here.funcBody body) fun b b' same => .ok (by simp [same])
  case h_8 =>
    rcases alike with _ | ⟨_, _, _, row⟩
    exact .bind (fieldsOf_mirrors inner row) fun fs fs' same => .ok (by simp [same])
  case h_9 =>
    rcases alike with _ | ⟨_, _, _, row⟩
    exact .bind (prefixExpOf_mirrors _ _ inner row) fun p p' same => .ok (by simp [same])
  case h_10 => exact .error
  all_goals
    cases alike
    exact .ok (by simp)

theorem headOf_mirrors : Mirrors Head.erase (headOf t) (headOf t') := by
  rw [headOf.eq_def]
  split
  · rcases alike with _ | ⟨_, _, _, row⟩
    exact .bind (varOf_mirrors _ _ inner row) fun v v' same => .ok (by simp [same])
  · rcases alike with _ | ⟨_, _, _, _ | ⟨exp, _ | ⟨_, _ | _⟩⟩⟩
    exact .bind ((inner _ (.head _)).here.exp exp) fun e e' same => .ok (by simp [same])
  · exact .error

theorem rootOf_mirrors : Mirrors Root.erase (rootOf t) (rootOf t') := by
  rw [rootOf.eq_def]
  split
  · cases alike
    exact .ok rfl
  · rcases alike with _ | ⟨_, _, _, _ | ⟨exp, _ | ⟨_, _ | _⟩⟩⟩
    exact .bind ((inner _ (.head _)).here.exp exp) fun e e' same => .ok (by simp [same])
  · exact .error

theorem accessOf_mirrors : Mirrors Access.erase (accessOf t) (accessOf t') := by
  rw [accessOf.eq_def]
  split
  · rcases alike with _ | ⟨_, _, _, _ | ⟨exp, _ | ⟨_, _ | _⟩⟩⟩
    exact .bind ((inner _ (.head _)).here.exp exp) fun e e' same => .ok (by simp [same])
  · rcases alike with _ | ⟨_, _, _, _ | ⟨name, _ | _⟩⟩
    exact .bind_id (nameOf_mirrors name) fun n => .ok rfl
  · exact .error

theorem callOf_mirrors : Mirrors Call.erase (callOf t) (callOf t') := by
  rw [callOf.eq_def]
  split
  · rcases alike with _ | ⟨_, _, _, _ | ⟨args, _ | _⟩⟩
    exact .bind ((inner _ (.head _)).here.args args) fun a a' same => .ok (by simp [same])
  · rcases alike with _ | ⟨_, _, _, _ | ⟨_ | ⟨_, _, _, _ | ⟨name, _ | _⟩⟩, _ | ⟨args, _ | _⟩⟩⟩
    exact .bind_id (nameOf_mirrors name) fun n => .bind ((inner _ (.tail _ (.head _))).here.args args) fun a a' same =>
      .ok (by simp [same])
  · exact .error

theorem argsOf_mirrors : Mirrors Args.erase (argsOf t) (argsOf t') := by
  rw [argsOf.eq_def]
  split
  · rcases alike with _ | ⟨_, _, _, _ | ⟨_, _ | _⟩⟩
    exact .ok rfl
  · rcases alike with _ | ⟨_, _, _, _ | ⟨_ | ⟨_, _, _, exps⟩, _ | ⟨_, _ | _⟩⟩⟩
    exact .bind (expsOf_mirrors (inner _ (.head _)).inner exps) fun es es' same => .ok (by simp [same])
  · rcases alike with _ | ⟨_, _, _, row⟩
    exact .bind (fieldsOf_mirrors inner row) fun fs fs' same => .ok (by simp [same])
  · rcases alike with _ | ⟨_, _, _, row⟩
    exact .bind_id (stringOf_mirrors _ _ row) fun s => .ok (by simp)
  · exact .error

theorem fieldOf_mirrors : Mirrors Field.erase (fieldOf t) (fieldOf t') := by
  rw [fieldOf.eq_def]
  split
  · rcases alike with _ | ⟨_, _, _, _ | ⟨key, _ | ⟨value, _ | _⟩⟩⟩
    exact .bind ((inner _ (.head _)).here.exp key) fun k k' same =>
      .bind ((inner _ (.tail _ (.head _))).here.exp value) fun v v' same' => .ok (by simp [same, same'])
  · rcases alike with _ | ⟨_, _, _, _ | ⟨name, _ | ⟨value, _ | _⟩⟩⟩
    exact .bind_id (nameOf_mirrors name) fun n =>
      .bind ((inner _ (.tail _ (.head _))).here.exp value) fun v v' same => .ok (by simp [same])
  · rcases alike with _ | ⟨_, _, _, _ | ⟨value, _ | _⟩⟩
    exact .bind ((inner _ (.head _)).here.exp value) fun v v' same => .ok (by simp [same])
  · exact .error

theorem funcBodyOf_mirrors : Mirrors FuncBody.erase (funcBodyOf t) (funcBodyOf t') := by
  rw [funcBodyOf.eq_def]
  split
  · rcases alike with _ | ⟨_, _, _, _ | ⟨block, _ | ⟨_, _ | _⟩⟩⟩
    exact .bind ((inner _ (.head _)).here.block block) fun b b' same => .ok (by simp [same])
  · rcases alike with _ | ⟨_, _, _, _ | ⟨_ | ⟨_, _, _, params⟩, _ | ⟨block, _ | ⟨_, _ | _⟩⟩⟩⟩
    exact .bind_id (paramsOf_mirrors params) fun ps =>
      .bind ((inner _ (.tail _ (.head _))).here.block block) fun b b' same => .ok (by simp [same])
  · exact .error

theorem blockOf_mirrors : Mirrors Block.erase (blockOf t) (blockOf t') := by
  rw [blockOf.eq_def]
  split
  · rcases alike with _ | ⟨_, _, _, row⟩
    refine .bind (statsOf_mirrors inner row) fun (stats, ret) (stats', ret') same => .ok ?_
    cases ret <;> cases ret' <;> simp_all
  · exact .error

theorem statOf_mirrors : Mirrors Stat.erase (statOf t) (statOf t') := by
  rw [statOf.eq_def]
  split
  -- an assignment
  · rcases alike with _ | ⟨_, _, _, _ | ⟨_ | ⟨_, _, _, vars⟩, _ | ⟨_ | ⟨_, _, _, exps⟩, _ | _⟩⟩⟩
    exact .bind (varsOf_mirrors (inner _ (.head _)).inner vars) fun vs vs' same =>
      .bind (expsOf_mirrors (inner _ (.tail _ (.head _))).inner exps) fun es es' same' => .ok (by simp [same, same'])
  -- a call
  · rcases alike with _ | ⟨_, _, _, row⟩
    exact .bind (prefixExpOf_mirrors _ _ inner row) fun p p' same => .ok (by simp [same])
  -- a label, `break` and `goto`
  · rcases alike with _ | ⟨_, _, _, _ | ⟨name, _ | ⟨_, _ | _⟩⟩⟩
    exact .bind_id (nameOf_mirrors name) fun n => .ok (by simp)
  · cases alike
    exact .ok (by simp)
  · rcases alike with _ | ⟨_, _, _, _ | ⟨name, _ | _⟩⟩
    exact .bind_id (nameOf_mirrors name) fun n => .ok (by simp)
  -- `do`, `while` and `repeat`
  · rcases alike with _ | ⟨_, _, _, _ | ⟨block, _ | ⟨_, _ | _⟩⟩⟩
    exact .bind ((inner _ (.head _)).here.block block) fun b b' same => .ok (by simp [same])
  · rcases alike with _ | ⟨_, _, _, _ | ⟨cond, _ | ⟨block, _ | ⟨_, _ | _⟩⟩⟩⟩
    exact .bind ((inner _ (.head _)).here.exp cond) fun c c' same =>
      .bind ((inner _ (.tail _ (.head _))).here.block block) fun b b' same' => .ok (by simp [same, same'])
  · rcases alike with _ | ⟨_, _, _, _ | ⟨block, _ | ⟨cond, _ | _⟩⟩⟩
    exact .bind ((inner _ (.head _)).here.block block) fun b b' same =>
      .bind ((inner _ (.tail _ (.head _))).here.exp cond) fun c c' same' => .ok (by simp [same, same'])
  -- `if`
  next range c b ts =>
    rcases alike with _ | ⟨_, _, _, _ | ⟨cond, _ | ⟨block, row⟩⟩⟩
    have later : ∀ u ∈ ts, u.Throughout Mirrored := fun u member => inner u (.tail _ (.tail _ member))
    refine .bind ((inner _ (.head _)).here.exp cond) fun c c' sameCond =>
      .bind ((inner _ (.tail _ (.head _))).here.block block) fun b b' sameBlock =>
      .bind (clausesOf_mirrors _ _ later row) fun (clauses, otherwise) (clauses', otherwise') same => .ok ?_
    cases otherwise <;> cases otherwise' <;> simp_all
  -- `for`
  · rcases alike with _ | ⟨_, _, _, _ | ⟨name, _ | ⟨start, _ | ⟨limit, _ | ⟨block, _ | ⟨_, _ | _⟩⟩⟩⟩⟩⟩
    simp only [ParseTree.children, List.forall_mem_cons] at inner
    obtain ⟨-, first, second, body, -⟩ := inner
    exact .bind_id (nameOf_mirrors name) fun n => .bind (first.here.exp start) fun a a' sameStart =>
      .bind (second.here.exp limit) fun l l' sameLimit => .bind (body.here.block block) fun b b' same =>
      .ok (by simp [sameStart, sameLimit, same])
  · rcases alike with _ | ⟨_, _, _, _ | ⟨name, _ | ⟨start, _ | ⟨limit, _ | ⟨step, _ | ⟨block, _ | ⟨_, _ | _⟩⟩⟩⟩⟩⟩⟩
    simp only [ParseTree.children, List.forall_mem_cons] at inner
    obtain ⟨-, first, second, third, body, -⟩ := inner
    exact .bind_id (nameOf_mirrors name) fun n => .bind (first.here.exp start) fun a a' sameStart =>
      .bind (second.here.exp limit) fun l l' sameLimit => .bind (third.here.exp step) fun s s' sameStep =>
      .bind (body.here.block block) fun b b' same => .ok (by simp [sameStart, sameLimit, sameStep, same])
  · rcases alike with _ | ⟨_, _, _, _ | ⟨_ | ⟨_, _, _, names⟩, _ | ⟨_ | ⟨_, _, _, exps⟩, _ | ⟨block, _ | ⟨_, _ | _⟩⟩⟩⟩⟩
    exact .bind_id (mapM_mirrors nameOf_mirrors names) fun ns =>
      .bind (expsOf_mirrors (inner _ (.tail _ (.head _))).inner exps) fun es es' same =>
      .bind ((inner _ (.tail _ (.tail _ (.head _)))).here.block block) fun b b' same' => .ok (by simp [same, same'])
  -- functions
  · rcases alike with _ | ⟨_, _, _, _ | ⟨_ | ⟨_, _, _, names⟩, _ | ⟨body, _ | _⟩⟩⟩
    exact .bind_id (funcNameOf_mirrors names) fun n =>
      .bind ((inner _ (.tail _ (.head _))).here.funcBody body) fun b b' same => .ok (by simp [same])
  · rcases alike with _ | ⟨_, _, _, _ | ⟨name, _ | ⟨body, _ | _⟩⟩⟩
    exact .bind_id (nameOf_mirrors name) fun n =>
      .bind ((inner _ (.tail _ (.head _))).here.funcBody body) fun b b' same => .ok (by simp [same])
  -- local variables
  · rcases alike with _ | ⟨_, _, _, _ | ⟨_ | ⟨_, _, _, names⟩, _ | _⟩⟩
    exact .bind_id (mapM_mirrors attribNameOf_mirrors names) fun ns => .ok (by simp)
  · rcases alike with _ | ⟨_, _, _, _ | ⟨_ | ⟨_, _, _, names⟩, _ | ⟨_ | ⟨_, _, _, exps⟩, _ | _⟩⟩⟩
    exact .bind_id (mapM_mirrors attribNameOf_mirrors names) fun ns =>
      .bind (expsOf_mirrors (inner _ (.tail _ (.head _))).inner exps) fun es es' same => .ok (by simp [same])
  · exact .error

end Nodes

theorem throughout_mirrored (t : ParseTree Rule) : t.Throughout Mirrored :=
  ParseTree.throughout_of_step (fun _ inner => {
    exp := expOf_mirrors inner
    primary := primaryOf_mirrors inner
    head := headOf_mirrors inner
    root := rootOf_mirrors inner
    access := accessOf_mirrors inner
    call := callOf_mirrors inner
    args := argsOf_mirrors inner
    field := fieldOf_mirrors inner
    funcBody := funcBodyOf_mirrors inner
    block := blockOf_mirrors inner
    stat := statOf_mirrors inner }) t

theorem chunkOf_mirrors {t t' : ParseTree Rule} (alike : t.Alike t') :
    Mirrors Chunk.erase (chunkOf t) (chunkOf t') := by
  rw [chunkOf.eq_def]
  split
  · rcases alike with _ | ⟨_, _, _, _ | ⟨_ | ⟨_, _, _, row⟩, _ | ⟨_, _ | _⟩⟩⟩
    exact .bind ((throughout_mirrored _).here.block (.phrase _ _ _ row)) fun b b' same =>
      .ok (by simp [Chunk.relabel, same])
  · rcases alike with _ | ⟨_, _, _, _ | ⟨_, _ | ⟨block, _ | ⟨_, _ | _⟩⟩⟩⟩
    rw [chunkOf]
    exact .bind ((throughout_mirrored _).here.block block) fun b b' same => .ok (by simp [Chunk.relabel, same])
  · exact .error

/-- Trees that are the same but for places give the same chunk up to ranges, or none. -/
theorem erase_chunkOf {t t' : ParseTree Rule} (alike : t.Alike t') :
    (chunkOf t).toOption.map Chunk.erase = (chunkOf t').toOption.map Chunk.erase := by
  cases made : chunkOf t with
  | ok chunk =>
    obtain ⟨chunk', made', same⟩ := chunkOf_mirrors alike chunk made
    rw [made']
    exact congrArg some same.symm
  | error e =>
    cases made' : chunkOf t' with
    | ok chunk' =>
      obtain ⟨chunk, found, -⟩ := chunkOf_mirrors alike.symm chunk' made'
      cases made.symm.trans found
    | error e' => rfl

end Syntax
end LuaLowering
