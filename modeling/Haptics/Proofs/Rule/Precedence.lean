import Haptics.Rule.Rulebook
/-!
# The precedence of rules

A rulebook is filled by rules that are added in front of the others or behind
them. `Rulebook.order` is the order that a history of additions leaves, and
`rules_addAll` says that the book keeps it: each addition puts one rule where it
belongs. What a pattern stands for (`Describes`) and when a rule fits a device
(`Rule.Fits`) is said without the searches of the program. The book then selects
the first rule of the order that fits; `Rulebook.selects_of_additions` is the
main statement.
-/

namespace Haptics

variable {pattern name : String} {services : List String} {r : Rule}

/-! ## Patterns -/

/-- **The names that a pattern stands for.** -/
inductive Describes : String → String → Prop
  /-- A star at the end leaves open what follows the text before it. -/
  | family (stem rest : String) : Describes (stem ++ "*") (stem ++ rest)
  /-- Without one a pattern stands for itself. -/
  | itself {pattern : String} (h : ∀ stem, pattern ≠ stem ++ "*") : Describes pattern pattern

theorem toList_star (stem : String) : (stem ++ "*").toList = stem.toList ++ ['*'] :=
  String.toList_append

theorem getLast?_eq_star_iff :
    pattern.toList.getLast? = some '*' ↔ ∃ stem, pattern = stem ++ "*" := by
  rw [List.getLast?_eq_some_iff]
  constructor
  · rintro ⟨stem, hstem⟩
    refine ⟨String.ofList stem, String.toList_inj.1 ?_⟩
    rw [toList_star, String.toList_ofList, hstem]
  · rintro ⟨stem, rfl⟩
    exact ⟨stem.toList, toList_star stem⟩

/-- **Names are matched as patterns describe them.** -/
theorem nameMatches_iff : nameMatches pattern name = true ↔ Describes pattern name := by
  unfold nameMatches
  split
  · -- the text before the star is the pattern without its last character
    rename_i hstar
    obtain ⟨stem, rfl⟩ := getLast?_eq_star_iff.1 hstar
    rw [toList_star, List.dropLast_concat, List.isPrefixOf_iff_prefix]
    constructor
    · rintro ⟨rest, hrest⟩
      have hname : name = stem ++ String.ofList rest := String.toList_inj.1 (by simp [hrest])
      rw [hname]
      exact .family stem _
    · intro h
      -- two stems of one pattern are the same
      generalize hpattern : stem ++ "*" = pattern at h
      cases h with
      | family stem' rest =>
        obtain ⟨hstem, -⟩ := List.append_inj' (toList_star stem ▸ toList_star stem' ▸
          congrArg String.toList hpattern) rfl
        rw [hstem]
        exact ⟨rest.toList, String.toList_append.symm⟩
      | itself hplain => exact absurd hpattern.symm (hplain stem)
  · rename_i hplain
    rw [getLast?_eq_star_iff, not_exists] at hplain
    rw [beq_iff_eq]
    constructor
    · rintro rfl
      exact .itself hplain
    · intro h
      cases h with
      | family stem rest => exact absurd rfl (hplain stem)
      | itself _ => rfl

namespace Rule

/-- **Whether a rule fits a device**: some pattern stands for its name, and it advertises every
service that the rule asks for. -/
structure Fits (r : Rule) (name : String) (services : List String) : Prop where
  named : ∃ pattern ∈ r.patterns, Describes pattern name
  advertised : ∀ service ∈ r.services, service ∈ services

theorem serves_iff : r.serves name services = true ↔ r.Fits name services := by
  rw [serves, Bool.and_eq_true, List.any_eq_true, List.all_eq_true]
  simp only [nameMatches_iff, List.contains_iff_mem]
  exact ⟨fun ⟨hn, hs⟩ => ⟨hn, hs⟩, fun ⟨hn, hs⟩ => ⟨hn, hs⟩⟩

/-- The first rule of a list that fits a device. -/
def FirstOf (rules : List Rule) (name : String) (services : List String) (r : Rule) : Prop :=
  r.Fits name services ∧ ∃ before after, rules = before ++ r :: after ∧
    ∀ earlier ∈ before, ¬ earlier.Fits name services

end Rule

namespace Rulebook

variable {b : Rulebook}

/-! ## Additions -/

/-- How a rule enters a book. -/
inductive Addition
  | front (r : Rule)
  | back (r : Rule)

def Addition.front? : Addition → Option Rule
  | front r => some r
  | back _ => none

def Addition.back? : Addition → Option Rule
  | front _ => none
  | back r => some r

def add (b : Rulebook) : Addition → Rulebook
  | .front r => b.addFront r
  | .back r => b.addBack r

def addAll (b : Rulebook) (as : List Addition) : Rulebook := as.foldl add b

/-- **The order of rules after a history of additions**: those added in front, the latest first,
then those added behind, the oldest first. -/
def order (as : List Addition) : List Rule :=
  (as.filterMap Addition.front?).reverse ++ as.filterMap Addition.back?

/-- One addition puts its rule at one end. -/
theorem rules_add (b : Rulebook) (a : Addition) :
    (b.add a).rules = a.front?.toList ++ b.rules ++ a.back?.toList := by
  cases a with
  | front r => simp [add, addFront, Addition.front?, Addition.back?]
  | back r => simp [add, addBack, Addition.front?, Addition.back?]

/-- **Additions surround what was in the book.** -/
theorem rules_addAll (b : Rulebook) (as : List Addition) :
    (b.addAll as).rules =
      (as.filterMap Addition.front?).reverse ++ b.rules ++ as.filterMap Addition.back? := by
  induction as generalizing b with
  | nil => simp [addAll]
  | cons a as ih =>
    rw [addAll, List.foldl_cons]
    refine (ih (b.add a)).trans ?_
    rw [rules_add]
    cases a with
    | front r => simp [List.filterMap_cons, Addition.front?, Addition.back?]
    | back r => simp [List.filterMap_cons, Addition.front?, Addition.back?]

theorem allowRaw_addAll (b : Rulebook) (as : List Addition) :
    (b.addAll as).allowRaw = b.allowRaw := by
  induction as generalizing b with
  | nil => rfl
  | cons a as ih => exact (ih (b.add a)).trans (by cases a <;> rfl)

/-! ## Selection -/

theorem match?_eq_some_iff :
    b.match? name services = some r ↔ Rule.FirstOf b.rules name services r := by
  rw [match?, List.find?_eq_some_iff_append, Rule.FirstOf, Rule.serves_iff]
  simp only [Bool.not_eq_true', ← Bool.not_eq_true, Rule.serves_iff]

theorem match?_eq_none_iff :
    b.match? name services = none ↔ ∀ r ∈ b.rules, ¬ r.Fits name services := by
  rw [match?, List.find?_eq_none]
  simp only [Rule.serves_iff]

/-- Services count as a set: neither their order nor repetitions matter. -/
theorem match?_congr {others : List String} (h : ∀ s, s ∈ others ↔ s ∈ services) :
    b.match? name others = b.match? name services := by
  have hfits : ∀ r : Rule, r.serves name others = r.serves name services := fun r => by
    rw [Bool.eq_iff_iff, Rule.serves_iff, Rule.serves_iff]
    exact ⟨fun ⟨hn, hs⟩ => ⟨hn, fun s hr => (h s).1 (hs s hr)⟩,
      fun ⟨hn, hs⟩ => ⟨hn, fun s hr => (h s).2 (hs s hr)⟩⟩
  unfold match?
  rw [funext hfits]

/-- **Rules behind a rule that fits change nothing.** -/
theorem match?_addAll_back (h : b.match? name services = some r) (later : List Rule) :
    (b.addAll (later.map .back)).match? name services = some r := by
  have hfront : (later.map Addition.back).filterMap Addition.front? = [] :=
    List.filterMap_eq_nil_iff.2 fun a ha => by
      obtain ⟨x, -, rfl⟩ := List.mem_map.1 ha
      rfl
  have hfirst : b.rules.find? (fun r => r.serves name services) = some r := h
  rw [match?, rules_addAll, hfront, List.reverse_nil, List.nil_append, List.find?_append, hfirst]
  rfl

/-- A book creates what it selects, so two that select alike create alike. -/
theorem create_congr {b' : Rulebook}
    (hmatch : b'.match? name services = b.match? name services)
    (hraw : b'.allowRaw = b.allowRaw) : b'.create name services = b.create name services := by
  unfold create capabilities
  rw [hmatch, hraw]

theorem create_eq_ok {v : Vendor} (h : b.match? name services = some r) (hv : r.vendor = some v) :
    b.create name services = .ok (.fresh v (b.capabilities r)) := by
  rw [create, h]
  dsimp only
  rw [hv]

/-- **A protocol is refused exactly if no rule is selected, or one without a vendor.** -/
theorem create_eq_error_iff {e : Fault} :
    b.create name services = .error e ↔
      (b.match? name services = none ∨ ∃ r, b.match? name services = some r ∧ r.vendor = none) ∧
        e = .noProtocol name := by
  cases hmatch : b.match? name services with
  | none => simp [create, hmatch, eq_comm]
  | some r =>
    cases hv : r.vendor with
    | none => simp [create, hmatch, hv, eq_comm]
    | some v => simp [create_eq_ok hmatch hv, hv]

/-- **How a book selects among rules in their order of precedence.** -/
structure Selects (b : Rulebook) (rules : List Rule) (name : String) (services : List String) :
    Prop where
  /-- Patterns are matched by what they stand for. -/
  names : ∀ pattern, nameMatches pattern name = true ↔ Describes pattern name
  /-- The first rule that fits is selected. -/
  match_iff : ∀ r, b.match? name services = some r ↔ Rule.FirstOf rules name services r
  /-- None is, if none fits. -/
  none_iff : b.match? name services = none ↔ ∀ r ∈ rules, ¬ r.Fits name services
  /-- Services count as a set. -/
  services_congr : ∀ others, (∀ s, s ∈ others ↔ s ∈ services) →
    b.match? name others = b.match? name services
  /-- A protocol is refused exactly if no rule is selected, or one without a vendor. -/
  refuses_iff : (∃ e, b.create name services = .error e) ↔
    b.match? name services = none ∨ ∃ r, b.match? name services = some r ∧ r.vendor = none
  /-- The device is then reported as unsupported. -/
  refusal : ∀ e, b.create name services = .error e →
    e = .noProtocol name ∧ e.code = .unsupportedDevice
  /-- Otherwise the protocol is that of the selected rule's vendor. -/
  creates : ∀ r v, b.match? name services = some r → r.vendor = some v →
    b.create name services = .ok (.fresh v (b.capabilities r))
  /-- Once a rule is selected, rules added behind change neither the selection nor the protocol. -/
  stays : ∀ r, b.match? name services = some r → ∀ later : List Rule,
    (b.addAll (later.map .back)).match? name services = some r ∧
      (b.addAll (later.map .back)).create name services = b.create name services

/-- **The first rule in the order of precedence that fits decides**, for a book filled by any
additions, with raw writes allowed or not, and for every device. -/
theorem selects_of_additions (raw : Bool) (as : List Addition) (name : String)
    (services : List String) :
    Selects (({ allowRaw := raw } : Rulebook).addAll as) (order as) name services := by
  have horder : (({ allowRaw := raw } : Rulebook).addAll as).rules = order as := by
    rw [rules_addAll, List.append_nil, order]
  generalize ({ allowRaw := raw } : Rulebook).addAll as = b at horder
  rw [← horder]
  refine ⟨fun _ => nameMatches_iff, fun _ => match?_eq_some_iff, match?_eq_none_iff,
    fun _ => match?_congr, ?_, fun e he => ?_, fun _ _ hr hv => create_eq_ok hr hv,
    fun r hr later => ?_⟩
  · simp only [create_eq_error_iff, exists_and_left, exists_eq, and_true]
  · obtain ⟨-, rfl⟩ := create_eq_error_iff.1 he
    exact ⟨rfl, rfl⟩
  · have hlater := match?_addAll_back hr later
    exact ⟨hlater, create_congr (hlater.trans hr.symm) (allowRaw_addAll b _)⟩

/-- The book of a server begins as five rules that are added behind one another. -/
example : builtin = ({} : Rulebook).addAll (builtinRules.map .back) := rfl

end Rulebook

end Haptics
