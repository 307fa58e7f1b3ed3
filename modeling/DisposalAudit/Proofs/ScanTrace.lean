import DisposalAudit.Proofs.GuardDecision

/-!
# The trace of a scan

While the guard rule reads a body it logs each signal when it sees it for
the first time, and then looks for it no more. The log of a scan is therefore
told by the body alone: it has one line for each signal that some instruction
shows, with the offset of the first that does.

## Main definitions

* `GuardOptions.Holds` — what it takes for an instruction to show a signal.
* `GuardOptions.IsFirst` — the first instruction of a body that does.
* `GuardOptions.firsts` — these instructions, in the order of the body.

## Main results

* `GuardOptions.sightings_eq` — a scan remembers what is shown first.
* `GuardOptions.inspect_traces` — the debug entries of an inspection.
-/

namespace DisposalAudit

/-- The debug entries of an inspection. -/
def Inspection.debugLog (inspection : Inspection) : List LogEntry :=
  inspection.log.filter fun entry => entry.level = .debug

namespace GuardOptions

variable (options : GuardOptions) (context : RuleContext) (m : Method)

/-! ## Conditions -/

/-- What it takes for the instruction at a position to show a signal. -/
def Holds (signal : Signal) (k : Nat) (ins : Instruction) : Prop :=
  match signal with
  | .selfCall => ∃ ref callee, ins.IsCall ∧ ins.operand = .method ref ∧
      context.resolve? ref = some callee ∧ callee.isPublic = false ∧ callee.isStatic = false ∧
      callee.declaringType = m.declaringType ∧ m.consumesSelf m.branchTargets k = true
  | .helperCall => ∃ ref, ins.IsCall ∧ ins.operand = .method ref ∧
      options.helperNameFragments ≠ [] ∧ ∀ part ∈ options.helperNameFragments,
        ∃ front back, ref.name.toList = front ++ part.toList ++ back
  | .selfField => ∃ ref, ins.IsFieldAccess ∧ ins.operand = .field ref ∧
      ref.declaringType = m.declaringType ∧ m.consumesSelf m.branchTargets k = true
  | .guardConstruction => ∃ ref, ins.opcode = some .construct ∧ ins.operand = .method ref ∧
      ref.declaringType = options.guardException

/-- The instruction at a position is the first that shows a signal. -/
structure IsFirst (signal : Signal) (ins : Instruction) (k : Nat) : Prop where
  here : m.body[k]? = some ins
  holds : options.Holds context m signal k ins
  earliest : ∀ j < k, ∀ other, m.body[j]? = some other → ¬ options.Holds context m signal j other

/-- Two signals on one instruction are those of a call. -/
theorem pairwise_holds (k : Nat) (ins : Instruction) :
    Signal.all.Pairwise fun a b =>
      options.Holds context m a k ins → options.Holds context m b k ins →
        a = .selfCall ∧ b = .helperCall := by
  have hself : options.Holds context m .selfCall k ins → ins.IsCall := by
    intro hholds
    obtain ⟨_, _, hcall, -⟩ := hholds
    exact hcall
  have hhelper : options.Holds context m .helperCall k ins → ins.IsCall := by
    intro hholds
    obtain ⟨_, hcall, -⟩ := hholds
    exact hcall
  have hfield : options.Holds context m .selfField k ins → ins.IsFieldAccess ∧ ¬ ins.IsCall := by
    intro hholds
    obtain ⟨_, haccess, -⟩ := hholds
    refine ⟨haccess, fun hcall => ?_⟩
    rcases hcall with hopcode | hopcode <;> simp [Instruction.IsFieldAccess, hopcode] at haccess
  have hguard : options.Holds context m .guardConstruction k ins →
      ¬ ins.IsCall ∧ ¬ ins.IsFieldAccess := by
    intro hholds
    obtain ⟨_, hopcode, -⟩ := hholds
    simp [Instruction.IsCall, Instruction.IsFieldAccess, hopcode]
  refine .cons (fun b hb ha hholds => ?_) (.cons (fun b hb ha hholds => ?_)
    (.cons (fun b hb ha hholds => ?_) (List.pairwise_singleton _ _))) <;>
    simp only [List.mem_cons, List.not_mem_nil, or_false] at hb
  · rcases hb with rfl | rfl | rfl
    · exact ⟨rfl, rfl⟩
    · exact absurd (hself ha) (hfield hholds).2
    · exact absurd (hself ha) (hguard hholds).1
  · rcases hb with rfl | rfl
    · exact absurd (hhelper ha) (hfield hholds).2
    · exact absurd (hhelper ha) (hguard hholds).1
  · subst hb
    exact absurd (hfield ha).1 (hguard hholds).2

variable {options context m}

theorem shows_iff_holds {signal : Signal} {k : Nat} {ins : Instruction} :
    options.shows context m.facts m signal k ins = true ↔ options.Holds context m signal k ins := by
  cases signal with
  | selfCall => exact shows_selfCall_iff
  | helperCall => exact shows_helperCall_iff
  | selfField => exact shows_selfField_iff
  | guardConstruction => exact shows_guardConstruction_iff

/-! ## The first instructions -/

variable (options context m)

/-- Whether some instruction of a part of the body shows a signal. -/
def isShownBy (part : List (Instruction × Nat)) (signal : Signal) : Bool :=
  part.any fun entry => options.shows context m.facts m signal entry.2 entry.1

/-- What an instruction shows that none before it has shown. -/
def news (before : List (Instruction × Nat)) (entry : Instruction × Nat) : List Signal :=
  Signal.all.filter fun signal =>
    !options.isShownBy context m before signal &&
      options.shows context m.facts m signal entry.2 entry.1

/-- The signals of a part of the body, with the instructions that show them
first, if no instruction before has. -/
def firsts (before : List (Instruction × Nat)) :
    List (Instruction × Nat) → List (Signal × Instruction × Nat)
  | [] => []
  | entry :: rest =>
    (options.news context m before entry).map (fun signal => (signal, entry)) ++
      firsts (before ++ [entry]) rest

variable {options context m}

theorem isShownBy_eq_true_iff {part : List (Instruction × Nat)} {signal : Signal} :
    options.isShownBy context m part signal = true ↔
      ∃ entry ∈ part, options.Holds context m signal entry.2 entry.1 := by
  simp only [isShownBy, List.any_eq_true, shows_iff_holds]

theorem mem_news_iff {before : List (Instruction × Nat)} {entry : Instruction × Nat}
    {signal : Signal} :
    signal ∈ options.news context m before entry ↔
      (∀ other ∈ before, ¬ options.Holds context m signal other.2 other.1) ∧
        options.Holds context m signal entry.2 entry.1 := by
  have hall : signal ∈ Signal.all := by
    cases signal <;> decide
  rw [news, List.mem_filter, Bool.and_eq_true, shows_iff_holds, Bool.not_eq_true',
    ← Bool.not_eq_true, isShownBy_eq_true_iff]
  simp only [hall, true_and, not_exists, not_and]

/-- **One instruction.** If the signals seen are those shown before, the scan
adds what the instruction shows first. -/
theorem sight_eq {before : List (Instruction × Nat)} {seen : List (Signal × Number)}
    (hseen : ∀ signal, signal ∈ seen.map Prod.fst ↔
      options.isShownBy context m before signal = true) (entry : Instruction × Nat) :
    options.sight context m.facts m seen entry =
      seen ++ (options.news context m before entry).map fun signal => (signal, entry.1.offset) := by
  have hany (signal : Signal) : (seen.any fun sighting => sighting.1 = signal) =
      options.isShownBy context m before signal := by
    rw [Bool.eq_iff_iff, ← hseen]
    simp
  simp only [sight, hany]
  rfl

/-- **A scan remembers what is shown first.** -/
theorem foldl_sight (entries : List (Instruction × Nat)) :
    ∀ {before : List (Instruction × Nat)} {seen : List (Signal × Number)},
      (∀ signal, signal ∈ seen.map Prod.fst ↔
        options.isShownBy context m before signal = true) →
      entries.foldl (options.sight context m.facts m) seen =
        seen ++ (options.firsts context m before entries).map fun first =>
          (first.1, first.2.1.offset) := by
  induction entries with
  | nil =>
      intro before seen _
      exact (List.append_nil seen).symm
  | cons entry rest ih =>
      intro before seen hseen
      have hnext (signal : Signal) :
          signal ∈ (options.sight context m.facts m seen entry).map Prod.fst ↔
            options.isShownBy context m (before ++ [entry]) signal = true := by
        rw [mem_sight_iff, hseen]
        simp [isShownBy]
      rw [List.foldl_cons, ih hnext, sight_eq hseen, firsts, List.map_append, List.map_map,
        List.append_assoc]
      rfl

theorem sightings_eq :
    options.sightings context m.facts m =
      (options.firsts context m [] m.body.zipIdx).map fun first =>
        (first.1, first.2.1.offset) := by
  have hnone : ∀ signal, signal ∈ ([] : List (Signal × Number)).map Prod.fst ↔
      options.isShownBy context m [] signal = true := by
    simp [isShownBy]
  rw [sightings, foldl_sight _ hnone, List.nil_append]

/-! ## Where they stand -/

theorem mem_firsts_iff {signal : Signal} {entry : Instruction × Nat}
    (entries : List (Instruction × Nat)) :
    ∀ before : List (Instruction × Nat),
      (signal, entry) ∈ options.firsts context m before entries ↔
        ∃ i : Nat, entries[i]? = some entry ∧ options.Holds context m signal entry.2 entry.1 ∧
          (∀ other ∈ before, ¬ options.Holds context m signal other.2 other.1) ∧
          ∀ j < i, ∀ other, entries[j]? = some other →
            ¬ options.Holds context m signal other.2 other.1 := by
  induction entries with
  | nil => simp [firsts]
  | cons head rest ih =>
      intro before
      rw [firsts, List.mem_append, ih, List.mem_map]
      constructor
      · intro hfirst
        rcases hfirst with hhead | hrest
        · obtain ⟨_, hnews, hsame⟩ := hhead
          obtain ⟨rfl, rfl⟩ := Prod.mk.inj hsame
          obtain ⟨hbefore, hholds⟩ := mem_news_iff.1 hnews
          exact ⟨0, rfl, hholds, hbefore, fun j hj => absurd hj (Nat.not_lt_zero j)⟩
        · obtain ⟨i, hentry, hholds, hbefore, hfront⟩ := hrest
          refine ⟨i + 1, hentry, hholds, fun other hother =>
            hbefore other (List.mem_append_left _ hother), fun j hj other hother => ?_⟩
          cases j with
          | zero =>
              obtain rfl := Option.some.inj hother
              exact hbefore head (List.mem_append_right _ (List.mem_singleton_self head))
          | succ j => exact hfront j (Nat.lt_of_succ_lt_succ hj) other hother
      · intro hfirst
        obtain ⟨i, hentry, hholds, hbefore, hfront⟩ := hfirst
        cases i with
        | zero =>
            obtain rfl := Option.some.inj hentry
            exact .inl ⟨signal, mem_news_iff.2 ⟨hbefore, hholds⟩, rfl⟩
        | succ i =>
            refine .inr ⟨i, hentry, hholds, fun other hother => ?_, fun j hj other hother =>
              hfront (j + 1) (Nat.succ_lt_succ hj) other hother⟩
            rcases List.mem_append.1 hother with hold | hhead
            · exact hbefore other hold
            · rw [List.mem_singleton.1 hhead]
              exact hfront 0 (Nat.succ_pos i) head rfl

/-- The first instructions of a body are those that have no other before. -/
theorem mem_firsts_zipIdx_iff {signal : Signal} {ins : Instruction} {k : Nat} :
    (signal, ins, k) ∈ options.firsts context m [] m.body.zipIdx ↔
      options.IsFirst context m signal ins k := by
  have hplace (i : Nat) (entry : Instruction × Nat) :
      m.body.zipIdx[i]? = some entry ↔ m.body[i]? = some entry.1 ∧ entry.2 = i := by
    obtain ⟨other, j⟩ := entry
    rw [List.getElem?_zipIdx]
    cases m.body[i]? <;> simp [eq_comm]
  rw [mem_firsts_iff]
  constructor
  · intro hfirst
    obtain ⟨i, hentry, hholds, -, hfront⟩ := hfirst
    obtain ⟨hins, rfl⟩ := (hplace i (ins, k)).1 hentry
    exact ⟨hins, hholds, fun j hj other hother => hfront j hj (other, j)
      ((hplace j (other, j)).2 ⟨hother, rfl⟩)⟩
  · intro hfirst
    refine ⟨k, (hplace k (ins, k)).2 ⟨hfirst.here, rfl⟩, hfirst.holds, by simp, ?_⟩
    intro j hj other hother
    obtain ⟨hins, rfl⟩ := (hplace j other).1 hother
    exact hfirst.earliest _ hj other.1 hins

/-- Lines are in the order of their instructions; two on one instruction are
those of a call. -/
def Precedes (a b : Signal × Instruction × Nat) : Prop :=
  a.2.2 < b.2.2 ∨ a.2.2 = b.2.2 ∧ a.1 = .selfCall ∧ b.1 = .helperCall

theorem pairwise_firsts (entries : List (Instruction × Nat)) :
    ∀ before : List (Instruction × Nat), entries.Pairwise (fun a b => a.2 < b.2) →
      (options.firsts context m before entries).Pairwise Precedes := by
  induction entries with
  | nil => exact fun _ _ => .nil
  | cons entry rest ih =>
      intro before hordered
      obtain ⟨hlater, hrest⟩ := List.pairwise_cons.1 hordered
      rw [firsts, List.pairwise_append, List.pairwise_map]
      refine ⟨?_, ih _ hrest, ?_⟩
      · refine List.Pairwise.imp_of_mem ?_
          ((options.pairwise_holds context m entry.2 entry.1).filter _)
        intro a b ha hb hpair
        exact .inr ⟨rfl, hpair (mem_news_iff.1 ha).2 (mem_news_iff.1 hb).2⟩
      · intro a ha b hb
        obtain ⟨signal, -, rfl⟩ := List.mem_map.1 ha
        obtain ⟨later, place⟩ := b
        obtain ⟨i, hplace, -⟩ := (mem_firsts_iff rest _).1 hb
        exact .inl (hlater place (List.mem_of_getElem? hplace))

/-! ## The trace -/

variable (options context m)

/-- The lines that the trace of a body has, by signal and instruction. -/
structure Traces (lines : List (Signal × Instruction × Nat)) : Prop where
  /-- Every line is about the first instruction that shows its signal. -/
  first : ∀ signal ins k, (signal, ins, k) ∈ lines ↔ options.IsFirst context m signal ins k
  /-- No signal has two lines. -/
  once : (lines.map Prod.fst).Nodup
  /-- Every signal that holds somewhere has a line. -/
  all : ∀ signal, signal ∈ lines.map Prod.fst ↔
    ∃ k ins, m.body[k]? = some ins ∧ options.Holds context m signal k ins
  ordered : lines.Pairwise Precedes

theorem pairwise_firsts_zipIdx :
    (options.firsts context m [] m.body.zipIdx).Pairwise Precedes := by
  refine pairwise_firsts _ _ (List.pairwise_map.1 ?_)
  rw [List.zipIdx_map_snd]
  exact List.pairwise_lt_range'

theorem traces_firsts :
    options.Traces context m (options.firsts context m [] m.body.zipIdx) where
  first _ _ _ := mem_firsts_zipIdx_iff
  once := by
    refine List.pairwise_map.2 (List.Pairwise.imp_of_mem ?_
      (options.pairwise_firsts_zipIdx context m))
    intro a b ha hb hprecedes hsame
    obtain ⟨signal, ins, j⟩ := a
    obtain ⟨_, other, k⟩ := b
    obtain rfl : signal = _ := hsame
    rcases hprecedes with hlt | ⟨-, hself, hhelper⟩
    · have hearlier := mem_firsts_zipIdx_iff.1 ha
      exact (mem_firsts_zipIdx_iff.1 hb).earliest j hlt ins hearlier.here hearlier.holds
    · cases hself.symm.trans hhelper
  all signal := by
    have hsignals : (options.firsts context m [] m.body.zipIdx).map Prod.fst =
        (options.sightings context m.facts m).map Prod.fst := by
      rw [sightings_eq, List.map_map]
      rfl
    rw [hsignals, mem_sightings_iff]
    simp only [IsShown, shows_iff_holds]
  ordered := options.pairwise_firsts_zipIdx context m

/-- The words of a line, in front of the offset. -/
def traceWords : Signal → String
  | .selfCall => "found non-public this call at "
  | .helperCall => "found dispose check at "
  | .selfField => "found field access at "
  | .guardConstruction => "creates exception at "

theorem describe_eq (signal : Signal) (offset : Number) :
    signal.describe offset = traceWords signal ++ offsetLabel offset := by
  cases signal <;> exact congrArg (· ++ offsetLabel offset) (by decide)

/-- What a scan logs of the lines of a trace: a separator, the signature, and
the words and the offset of every line. -/
def traceLog (lines : List (Signal × Instruction × Nat)) : List LogEntry :=
  ("-----------------------------------------" :: m.signature ::
    lines.map fun line => traceWords line.1 ++ offsetLabel line.2.1.offset).map fun message =>
      ⟨"dispose-guard", .debug, message⟩

theorem debugLog_readingLog (events : List RuleEvent) (outcome : Except String Verdict) :
    Inspection.debugLog ⟨options.readingLog context m ++ events, outcome⟩ =
      traceLog m (options.firsts context m [] m.body.zipIdx) ++
        Inspection.debugLog ⟨events, outcome⟩ := by
  have hmessages : ∀ messages : List String,
      Inspection.debugLog ⟨messages.map (fun message => .logged (entry .debug message)) ++ events,
        outcome⟩ = messages.map (entry .debug) ++ Inspection.debugLog ⟨events, outcome⟩ := by
    intro messages
    induction messages with
    | nil => rfl
    | cons message rest ih => exact congrArg (entry .debug message :: ·) ih
  simp only [readingLog, sightings_eq, hmessages, List.map_map, describe_eq]
  rfl

/-- **The trace of an inspection.** -/
theorem inspect_traces :
    ∃ verdict lines, (options.inspect context m.facts m).outcome = .ok verdict ∧
      options.Traces context m lines ∧
      (options.inspect context m.facts m).debugLog =
        if verdict = .doesNotApply ∨ verdict = .skipped then [] else traceLog m lines := by
  have htraces := options.traces_firsts context m
  by_cases hover : options.PassesOver context m
  · rw [inspect_of_passesOver options context m hover]
    exact ⟨.doesNotApply, _, rfl, htraces, rfl⟩
  · rw [inspect_of_not_passesOver options context m hover]
    cases hflaw : m.firstFlaw? with
    | some flaw => exact ⟨.skipped, _, rfl, htraces, rfl⟩
    | none =>
        dsimp only
        split
        · refine ⟨.failure, _, rfl, htraces, ?_⟩
          rw [debugLog_readingLog]
          exact List.append_nil _
        · refine ⟨.success, _, rfl, htraces, ?_⟩
          have hlog := options.debugLog_readingLog context m [] (.ok .success)
          rw [List.append_nil] at hlog
          rw [hlog]
          exact List.append_nil _

end GuardOptions

end DisposalAudit
