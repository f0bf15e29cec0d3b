import LuaLowering.Lower.Basic
import LuaLowering.Proofs.Growth
/-!
# Handles

The factories give out handles, and later calls take them: a `Ref` for one value, a `Pack` for a group. A handle is
typed in a module when its value is there and is of the type that the handle promises. A factory that is given typed
handles is refused, or it places an operation that fits its kind and gives out typed handles (`Construction.placed`).
-/
namespace LuaLowering

/-- The value of a handle exists and has the type that the handle promises. -/
def Lowered.Typed (m : Module) : Lowered → Prop
  | .value v => m.type? v.id = some .ref
  | .pack p => m.type? p.id = some .pack

/-- A handle stays typed while its value keeps its type. -/
theorem Lowered.Typed.of_type? {m m' : Module} (kept : ∀ v type, m.type? v = some type → m'.type? v = some type)
    {item : Lowered} (typed : item.Typed m) : item.Typed m' := by
  cases item with
  | value v => exact kept v.id .ref typed
  | pack p => exact kept p.id .pack typed

theorem Lowered.stable_typed (item : Lowered) : Module.Stable fun m => item.Typed m :=
  fun m b d typed => typed.of_type? fun v type => Module.stable_type? v type m b d

/-- What a construction step gives out, unless it fails. -/
def Build.result? {α : Type} (step : Build α) (m : Module) : Option α :=
  match step m with
  | .ok (a, _) => some a
  | .error _ => none

namespace Construction

/-- Where the operation is to be placed, in a call of a factory. -/
def site? : Construction → Option Site
  | .nil site _ | .number site _ _ | .getOrAlloc site _ _ | .concat site _ _ | .unpack site _ _ _ => some site
  | .assign site _ _ _ | .call site _ _ _ | .ret site _ => some site
  | .addFunction .. | .pushFunction _ | .addEntryBlock _ | .addBlockArgument .. => none

/-- The handles that a call takes. A concat takes values by their ids, whatever they are. -/
def takes : Construction → List Lowered
  | .unpack _ pack _ _ => [.pack pack]
  | .assign _ target value _ => [.value target, .value value]
  | .call _ callee args _ => [.value callee, .pack args]
  | _ => []

/-- The handles that a call gives out; a failing one gives out none. -/
def gives : Construction → Module → List Lowered
  | .nil site loc, m => ((site.nil loc).result? m).elim [] fun v => [.value v]
  | .number site n loc, m => ((site.number n loc).result? m).elim [] fun v => [.value v]
  | .getOrAlloc site name loc, m => ((site.getOrAlloc name loc).result? m).elim [] fun v => [.value v]
  | .concat site items loc, m => ((site.concat items loc).result? m).elim [] fun p => [.pack p]
  | .unpack site pack count loc, m => ((site.unpack pack count loc).result? m).elim [] (·.map .value)
  | .call site callee args loc, m => ((site.call callee args loc).result? m).elim [] fun p => [.pack p]
  | _, _ => []

end Construction

/-- All that a factory with typed handles can do at a site: nothing, or place an operation that fits its kind and
give out typed handles. -/
inductive Site.Placed (site : Site) (m : Module) : Module → List Lowered → Prop where
  | refused : Placed site m m []
  | accepted (block : Block) (d : Draft) (handles : List Lowered) (registered : d.kind ∈ site.catalogue.kinds)
      (found : m.block? site.block = some block) (opened : m.isTerminated site.catalogue block = false)
      (operands : ∀ v ∈ d.operands, v.index < m.values.size) (fits : d.Fits m)
      (typed : ∀ h ∈ handles, h.Typed (m.append site.block d)) : Placed site m (m.append site.block d) handles

namespace Site

theorem Places.placed {α : Type} {site : Site} {d : Draft} {step : Build α} {handle : Module → α}
    (places : site.Places d step handle) {m : Module} (fits : d.Fits m) {handles : α → List Lowered}
    (typed : ∀ h ∈ handles (handle m), h.Typed (m.append site.block d)) :
    site.Placed m (step.after m) ((step.result? m).elim [] handles) := by
  cases made : step.run m with
  | error e m' =>
    simp only [Build.after, Build.result?, Build.outcome, made, Option.elim_none, places.atomic m e m' made]
    exact .refused
  | ok a m' =>
    obtain ⟨registered, ⟨block, found, opened⟩, operands, rfl, rfl⟩ :=
      (places.eq_ok_iff m m' a).mp (Build.eq_ok_iff_run.mpr made)
    simp only [Build.after, Build.result?, Build.outcome, made, Option.elim_some]
    exact .accepted block d _ registered found opened operands fits typed

/-- A factory that gives out one handle, for the only result of its operation. -/
theorem Places.placed_one {α : Type} {site : Site} {d : Draft} {step : Build α} {g : ValueId → α} {h : α → Lowered}
    (places : site.Places d step fun m => g ⟨m.values.size⟩) {m : Module} (fits : d.Fits m) {type : ValueType}
    (one : d.results = [type]) (promise : ∀ m v, m.type? v = some type → (h (g v)).Typed m) :
    site.Placed m (step.after m) ((step.result? m).elim [] fun a => [h a]) := by
  refine places.placed fits fun handle member => ?_
  rw [List.mem_singleton.mp member]
  exact promise _ _ ((m.gives_append site.block one).type?_eq one)

/-- A factory that gives out nothing. -/
theorem Places.placed_unit {site : Site} {d : Draft} {step : Build Unit} (places : site.Places d step fun _ => ())
    {m : Module} (fits : d.Fits m) : site.Placed m (step.after m) [] := by
  have placed : site.Placed m (step.after m) ((step.result? m).elim [] fun _ => []) := places.placed fits (by simp)
  have none : (step.result? m).elim ([] : List Lowered) (fun _ => []) = [] := by cases step.result? m <;> rfl
  rw [none] at placed
  exact placed

end Site

/-- The refs that an unpack gives out are results of it. -/
theorem Module.typed_unpack (m : Module) (b : BlockId) (pack : Pack) (count : Nat) (loc : Location) :
    ∀ h ∈ ((m.resultIds (List.replicate count .ref)).map Ref.mk).map Lowered.value,
      h.Typed (m.append b ⟨.unpack, [pack.id], [], List.replicate count .ref, loc⟩) := by
  intro h member
  obtain ⟨v, listed, rfl⟩ := List.mem_map.mp member
  obtain ⟨id, new, rfl⟩ := List.mem_map.mp listed
  obtain ⟨type, inside, typed⟩ := Module.type?_append_of_mem (b := b)
    (d := ⟨.unpack, [pack.id], [], List.replicate count .ref, loc⟩) new
  rw [List.eq_of_mem_replicate inside] at typed
  exact typed

/-- What a factory can do when the handles it takes are typed. -/
theorem Construction.placed {k : Construction} {site : Site} (factory : k.site? = some site) {m : Module}
    (typed : ∀ h ∈ k.takes, h.Typed m) : site.Placed m (k.after m) (k.gives m) := by
  cases k with
  | addFunction name loc => cases factory
  | pushFunction f => cases factory
  | addEntryBlock r => cases factory
  | addBlockArgument b type => cases factory
  | nil site loc =>
    cases factory
    exact (site.places_nil loc).placed_one (Draft.fits_nil m loc) rfl fun _ _ typed => typed
  | number site n loc =>
    cases factory
    exact (site.places_number loc n).placed_one (Draft.fits_number m loc n) rfl fun _ _ typed => typed
  | getOrAlloc site name loc =>
    cases factory
    exact (site.places_getOrAlloc loc name).placed_one (Draft.fits_getOrAlloc m loc name) rfl fun _ _ typed => typed
  | concat site items loc =>
    cases factory
    exact (site.places_concat loc items).placed_one (Draft.fits_concat m loc items) rfl fun _ _ typed => typed
  | unpack site pack count loc =>
    cases factory
    have isPack : m.type? pack.id = some .pack := typed (.pack pack) (by simp [takes])
    exact (site.places_unpack loc pack count).placed (Draft.fits_unpack m loc isPack count)
      (m.typed_unpack site.block pack count loc)
  | assign site target value loc =>
    cases factory
    have isCell : m.type? target.id = some .ref := typed (.value target) (by simp [takes])
    have isRef : m.type? value.id = some .ref := typed (.value value) (by simp [takes])
    exact (site.places_assign loc target value).placed_unit (Draft.fits_assign m loc isCell isRef)
  | call site callee args loc =>
    cases factory
    have isRef : m.type? callee.id = some .ref := typed (.value callee) (by simp [takes])
    have isPack : m.type? args.id = some .pack := typed (.pack args) (by simp [takes])
    exact (site.places_call loc callee args).placed_one (Draft.fits_call m loc isRef isPack) rfl fun _ _ typed => typed
  | ret site loc =>
    cases factory
    exact (site.places_ret loc).placed_unit (Draft.fits_ret m loc)

end LuaLowering
