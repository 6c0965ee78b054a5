import Extrusion.Proofs.Build.Completion
import Extrusion.Proofs.Numeric.Monotone

/-!
# Reports in order

A build reports its stages one after the other and more and more of each, with
every share between nothing and all of it.  This holds however the build ends
and whatever number of instructions it was told to expect.  A build that
completes has reported each of its layers once, and no other one is finalized.
-/

namespace Extrusion

open Numeric

/-!
## Shares
-/

namespace Progress

theorem singleRatio_eq (num den : Nat) :
    singleRatio num den =
      ((BinaryFormat.single.round num den).1 *
          Nat.pow 2 (BinaryFormat.single.round num den).2.toNat,
        Nat.pow 2 (-(BinaryFormat.single.round num den).2).toNat) := rfl

theorem singleRatio_den_pos (num den : Nat) : 0 < (singleRatio num den).2 := by
  rw [singleRatio_eq]
  exact Nat.pow_pos two_pos

theorem cast_singleRatio (num den : Nat) :
    ((singleRatio num den).1 : ℚ) / (singleRatio num den).2 =
      BinaryFormat.single.nearestValue num den := by
  rw [singleRatio_eq]
  exact cast_mul_pow_div _ two_pos _

theorem nearestValue_single_pos {num : Nat} (hnum : 0 < num) :
    0 < BinaryFormat.single.nearestValue num 1 := by
  have hone : BinaryFormat.single.round 1 1 = (2 ^ 23, -23) := by decide
  have hvalue : BinaryFormat.single.nearestValue 1 1 = 1 := by
    rw [BinaryFormat.nearestValue, hone]
    norm_num
  calc (0 : ℚ) < BinaryFormat.single.nearestValue 1 1 := by rw [hvalue]; exact one_pos
    _ ≤ BinaryFormat.single.nearestValue num 1 := by
        apply BinaryFormat.nearestValue_mono (by decide) one_pos one_pos
        gcongr
        exact hnum

def share (done total : Nat) : ℚ :=
  BinaryFormat.single.nearestValue ((singleRatio done 1).1 * (singleRatio total 1).2)
    ((singleRatio done 1).2 * (singleRatio total 1).1)

theorem fractionOf_eq (done total : Nat) : fractionOf done total = min 1 (share done total) := by
  have hvalue := cast_singleRatio ((singleRatio done 1).1 * (singleRatio total 1).2)
    ((singleRatio done 1).2 * (singleRatio total 1).1)
  have hpos := singleRatio_den_pos ((singleRatio done 1).1 * (singleRatio total 1).2)
    ((singleRatio done 1).2 * (singleRatio total 1).1)
  unfold fractionOf share
  simp only
  generalize singleRatio ((singleRatio done 1).1 * (singleRatio total 1).2)
    ((singleRatio done 1).2 * (singleRatio total 1).1) = quotient at hvalue hpos ⊢
  have hpos' : (0 : ℚ) < quotient.2 := by exact_mod_cast hpos
  rw [← hvalue]
  split
  · rename_i hle
    rw [min_eq_left ((one_le_div hpos').mpr (by exact_mod_cast hle))]
    rfl
  · rename_i hlt
    have hlt' : (quotient.1 : ℚ) ≤ quotient.2 := by
      exact_mod_cast (Nat.lt_of_not_le hlt).le
    rw [min_eq_right ((div_le_one hpos').mpr hlt'), Rat.mkRat_eq_div, Int.cast_natCast]

theorem fractionOf_nonneg (done total : Nat) : 0 ≤ fractionOf done total := by
  rw [fractionOf_eq]
  exact le_min zero_le_one (BinaryFormat.nearestValue_nonneg _ _ _)

theorem fractionOf_le_one (done total : Nat) : fractionOf done total ≤ 1 := by
  rw [fractionOf_eq]
  exact min_le_left _ _

theorem fractionOf_mono {done done' total : Nat} (htotal : 0 < total) (h : done ≤ done') :
    fractionOf done total ≤ fractionOf done' total := by
  have hcounts : BinaryFormat.single.nearestValue done 1 ≤
      BinaryFormat.single.nearestValue done' 1 := by
    apply BinaryFormat.nearestValue_mono (by decide) one_pos one_pos
    gcongr
  have hnum : 0 < (singleRatio total 1).1 := by
    have hvalue := nearestValue_single_pos htotal
    rw [← cast_singleRatio] at hvalue
    apply Nat.pos_of_ne_zero
    intro hzero
    rw [hzero, Nat.cast_zero, zero_div] at hvalue
    exact lt_irrefl 0 hvalue
  have hquotient : ∀ count : Nat,
      (((singleRatio count 1).1 * (singleRatio total 1).2 : Nat) : ℚ) /
          ((singleRatio count 1).2 * (singleRatio total 1).1 : Nat) =
        BinaryFormat.single.nearestValue count 1 / BinaryFormat.single.nearestValue total 1 := by
    intro count
    rw [← cast_singleRatio, ← cast_singleRatio, div_div_div_eq]
    push_cast
    rfl
  rw [fractionOf_eq, fractionOf_eq]
  apply min_le_min_left
  unfold share
  apply BinaryFormat.nearestValue_mono (by decide)
    (Nat.mul_pos (singleRatio_den_pos done 1) hnum)
    (Nat.mul_pos (singleRatio_den_pos done' 1) hnum)
  rw [hquotient, hquotient]
  exact div_le_div_of_nonneg_right hcounts (nearestValue_single_pos htotal).le

end Progress

/-!
## The order of reports
-/

def Stage.place : Stage → Nat
  | .simulating => 0
  | .padding => 1
  | .statistics => 2
  | .finalizing => 3

/-- An earlier stage, or the same one and not more of it. -/
def Progress.Precedes (earlier later : Progress) : Prop :=
  earlier.stage.place < later.stage.place ∨
    earlier.stage = later.stage ∧ earlier.fraction ≤ later.fraction

theorem Progress.Precedes.of_le (stage : Stage) {fraction fraction' : ℚ}
    (h : fraction ≤ fraction') : Progress.Precedes ⟨stage, fraction⟩ ⟨stage, fraction'⟩ :=
  Or.inr ⟨rfl, h⟩

theorem Progress.Precedes.trans {first second third : Progress} (h : first.Precedes second)
    (h' : second.Precedes third) : first.Precedes third := by
  rcases h with hlt | ⟨hstage, hle⟩
  · rcases h' with hlt' | ⟨hstage', -⟩
    · exact Or.inl (hlt.trans hlt')
    · exact Or.inl (hstage' ▸ hlt)
  · rcases h' with hlt' | ⟨hstage', hle'⟩
    · exact Or.inl (hstage ▸ hlt')
    · exact Or.inr ⟨hstage.trans hstage', hle.trans hle'⟩

/-- Reports in order, each with a possible share, and none of them beyond a bound. -/
structure History.UpTo (bound : Progress) (history : History) : Prop where
  ordered : history.reports.Pairwise fun later earlier => earlier.Precedes later
  shares : ∀ report ∈ history.reports, 0 ≤ report.fraction ∧ report.fraction ≤ 1
  bounded : ∀ report ∈ history.reports, report.Precedes bound

namespace History

variable {history : History} {bound : Progress}

theorem UpTo.mono {bound' : Progress} (h : history.UpTo bound) (hbound : bound.Precedes bound') :
    history.UpTo bound' where
  ordered := h.ordered
  shares := h.shares
  bounded report hreport := (h.bounded report hreport).trans hbound

theorem UpTo.report {stage : Stage} {fraction : ℚ} (h : history.UpTo bound)
    (hbound : bound.Precedes ⟨stage, fraction⟩) (hlow : 0 ≤ fraction) (hhigh : fraction ≤ 1) :
    (history.report stage fraction).UpTo ⟨stage, fraction⟩ where
  ordered := List.pairwise_cons.mpr
    ⟨fun report hreport => (h.bounded report hreport).trans hbound, h.ordered⟩
  shares := List.forall_mem_cons.mpr ⟨⟨hlow, hhigh⟩, h.shares⟩
  bounded := List.forall_mem_cons.mpr
    ⟨Or.inr ⟨rfl, le_rfl⟩, fun report hreport => (h.bounded report hreport).trans hbound⟩

end History

namespace Build

variable {α : Type} [Scalar α]

/-!
## Simulating
-/

/-- The share that is reported once so many instructions have been handled. -/
def handledShare (control : Control) (handled : Nat) : ℚ :=
  match control.expected with
  | some expected => if 0 < expected then Progress.fractionOf handled expected else 0
  | none => 0

theorem handledShare_nonneg (control : Control) (handled : Nat) :
    0 ≤ handledShare control handled := by
  unfold handledShare
  split
  · split
    · exact Progress.fractionOf_nonneg _ _
    · exact le_rfl
  · exact le_rfl

theorem handledShare_le_one (control : Control) (handled : Nat) :
    handledShare control handled ≤ 1 := by
  unfold handledShare
  split
  · split
    · exact Progress.fractionOf_le_one _ _
    · exact zero_le_one
  · exact zero_le_one

theorem handledShare_mono (control : Control) {handled handled' : Nat} (h : handled ≤ handled') :
    handledShare control handled ≤ handledShare control handled' := by
  unfold handledShare
  split
  · split
    · exact Progress.fractionOf_mono ‹_› h
    · exact le_rfl
  · exact le_rfl

def Simulating (control : Control) (history : History) : Prop :=
  history.UpTo ⟨.simulating, handledShare control history.handled⟩

theorem simulating_opening (control : Control) : Simulating control opening := by
  have hstart : History.start.UpTo ⟨.simulating, 0⟩ := by
    refine ⟨List.Pairwise.nil, ?_, ?_⟩
    · exact fun report hreport => absurd hreport List.not_mem_nil
    · exact fun report hreport => absurd hreport List.not_mem_nil
  have hopening := hstart.report (.of_le .simulating le_rfl) le_rfl zero_le_one
  exact hopening.mono (.of_le .simulating (handledShare_nonneg control 0))

theorem reportSimulated_cases (control : Control) (history : History) :
    reportSimulated control history = history ∨
      reportSimulated control history =
        history.report .simulating (handledShare control history.handled) := by
  unfold reportSimulated handledShare
  cases control.expected with
  | none => exact Or.inl rfl
  | some expected =>
      simp only
      split
      · rename_i h
        rw [if_pos h.1]
        exact Or.inr rfl
      · exact Or.inl rfl

theorem Simulating.reportSimulated {control : Control} {history : History}
    (h : Simulating control history) :
    Simulating control (reportSimulated control history.pull.handle) := by
  have hnext : Simulating control history.pull.handle :=
    ⟨h.ordered, h.shares, fun report hreport =>
      (h.bounded report hreport).trans
        (.of_le .simulating (handledShare_mono control (Nat.le_succ history.handled)))⟩
  rcases reportSimulated_cases control history.pull.handle with heq | heq
  · rw [heq]
    exact hnext
  · rw [heq]
    exact hnext.report (.of_le .simulating le_rfl) (handledShare_nonneg _ _)
      (handledShare_le_one _ _)

theorem upTo_simulate {control : Control} {history : History} (h : Simulating control history)
    (builder : Builder α) (items : List (BuildItem α)) :
    (simulate control history builder items).1.UpTo ⟨.simulating, 1⟩ := by
  have hhere : history.UpTo ⟨.simulating, 1⟩ :=
    h.mono (.of_le .simulating (handledShare_le_one _ _))
  induction items generalizing history builder with
  | nil => exact hhere
  | cons item items ih =>
      cases hstop : control.stop history.pull with
      | true =>
          rw [simulate_cons_of_stop hstop]
          exact ⟨hhere.ordered, hhere.shares, hhere.bounded⟩
      | false =>
          rw [simulate_cons hstop]
          cases builder.accept item with
          | error failure => exact ⟨hhere.ordered, hhere.shares, hhere.bounded⟩
          | ok next =>
              have hnext := h.reportSimulated
              exact ih hnext next (hnext.mono (.of_le .simulating (handledShare_le_one _ _)))

theorem simulate_ne_completed (control : Control) (history : History) (builder : Builder α)
    (items : List (BuildItem α)) (model : Model α) :
    (simulate control history builder items).2 ≠ .error (.completed model) := by
  have hsimulated := simulated control history builder items
  intro hcompleted
  rw [hcompleted] at hsimulated
  cases hsimulated

/-!
## Padding
-/

theorem upTo_padLayers (control : Control) (padding : α) {total done : Nat} {history : History}
    {drafts : List (α × Draft α)} (htotal : drafts.length ≤ total)
    (h : history.UpTo ⟨.padding, Progress.fractionOf done total⟩) :
    (padLayers control padding total done history drafts).1.UpTo ⟨.padding, 1⟩ := by
  have hhere : history.UpTo ⟨.padding, 1⟩ :=
    h.mono (.of_le .padding (Progress.fractionOf_le_one _ _))
  induction drafts generalizing done history with
  | nil => exact hhere
  | cons entry rest ih =>
      rcases entry with ⟨z, draft⟩
      rw [List.length_cons] at htotal
      rw [padLayers]
      by_cases hstop : control.stop history = true
      · rw [if_pos hstop]
        exact hhere
      · rw [if_neg hstop]
        have hmono := Progress.fractionOf_mono (Nat.zero_lt_of_lt htotal) (Nat.le_succ done)
        have hnext := h.report (.of_le .padding hmono)
          (Progress.fractionOf_nonneg _ _) (Progress.fractionOf_le_one _ _)
        exact ih (Nat.le_of_lt htotal) hnext
          (hnext.mono (.of_le .padding (Progress.fractionOf_le_one _ _)))

def paddingReport (total count : Nat) : Progress :=
  ⟨.padding, Progress.fractionOf count total⟩

theorem reports_padLayers {control : Control} {padding : α} {total done : Nat}
    {history later : History} {drafts : List (α × Draft α)} {layers : List (α × Layer α)}
    (h : padLayers control padding total done history drafts = (later, some layers)) :
    later.reports =
      ((List.range' (done + 1) drafts.length).map (paddingReport total)).reverse ++
        history.reports := by
  induction drafts generalizing done history layers with
  | nil =>
      cases h
      rfl
  | cons entry rest ih =>
      rcases entry with ⟨z, draft⟩
      rw [padLayers] at h
      by_cases hstop : control.stop history = true
      · rw [if_pos hstop] at h
        cases h
      · rw [if_neg hstop] at h
        rcases hrest : padLayers control padding total (done + 1)
          (history.report .padding (Progress.fractionOf (done + 1) total)) rest with ⟨next, found⟩
        cases found with
        | none =>
            simp only [hrest] at h
            cases h
        | some finished =>
            simp only [hrest] at h
            cases h
            rw [ih hrest, List.length_cons, List.range'_succ, List.map_cons, List.reverse_cons,
              List.append_assoc]
            rfl

/-!
## Whole builds
-/

/-- What the reports of a build say, given how it ended. -/
structure Reported (history : History) (outcome : Outcome α) : Prop where
  ordered : history.reports.reverse.Pairwise Progress.Precedes
  shares : ∀ report ∈ history.reports, 0 ≤ report.fraction ∧ report.fraction ≤ 1
  padded : ∀ model, outcome = .completed model →
    history.reports.reverse.filter (fun report => report.stage = .padding) =
      (List.range' 1 model.layerCount).map (paddingReport model.layerCount)
  finalized : (∃ report ∈ history.reports, report.stage = .finalizing) ↔
    ∃ model, outcome = .completed model

omit [Scalar α] in
theorem Reported.of_upTo {history : History} {bound : Progress} {outcome : Outcome α}
    (h : history.UpTo bound) (hbound : bound.stage ≠ .finalizing)
    (houtcome : ∀ model, outcome ≠ .completed model) : Reported history outcome where
  ordered := List.pairwise_reverse.mpr h.ordered
  shares := h.shares
  padded model hmodel := absurd hmodel (houtcome model)
  finalized := by
    constructor
    · rintro ⟨report, hreport, hstage⟩
      rcases h.bounded report hreport with hlt | ⟨heq, -⟩
      · rw [hstage] at hlt
        have hlast : bound.stage.place ≤ Stage.finalizing.place := by
          cases bound.stage <;> decide
        exact absurd hlt (Nat.not_lt_of_le hlast)
      · exact absurd (heq.symm.trans hstage) hbound
    · rintro ⟨model, hmodel⟩
      exact absurd hmodel (houtcome model)

theorem stage_of_upTo_simulating {history : History} {fraction : ℚ}
    (h : history.UpTo ⟨.simulating, fraction⟩) :
    ∀ report ∈ history.reports, report.stage = .simulating := by
  intro report hreport
  rcases h.bounded report hreport with hlt | ⟨heq, -⟩
  · exact absurd hlt (Nat.not_lt_zero _)
  · exact heq

theorem filter_padding_reports {history : History} {fraction : ℚ} (total count : Nat)
    (h : history.UpTo ⟨.simulating, fraction⟩) :
    (⟨.finalizing, 1⟩ :: ⟨.statistics, 1⟩ ::
        (((List.range' 1 count).map (paddingReport total)).reverse ++ history.reports)).reverse.filter
          (fun report => report.stage = .padding) =
      (List.range' 1 count).map (paddingReport total) := by
  have hbefore : history.reports.reverse.filter (fun report => report.stage = .padding) = [] := by
    rw [List.filter_eq_nil_iff]
    intro report hreport
    rw [stage_of_upTo_simulating h report (List.mem_reverse.mp hreport)]
    decide
  have hlayers : ((List.range' 1 count).map (paddingReport total)).filter
      (fun report => report.stage = .padding) =
        (List.range' 1 count).map (paddingReport total) := by
    rw [List.filter_eq_self]
    intro report hreport
    obtain ⟨number, -, rfl⟩ := List.mem_map.mp hreport
    rfl
  simp [List.filter_append, hbefore, hlayers]

theorem reported_finish {control : Control} {history : History}
    (h : history.UpTo ⟨.simulating, 1⟩) (builder : Builder α) :
    Reported (finish control history builder).1 (finish control history builder).2 := by
  have hcount : builder.print.layers.ascending.length = builder.toModel.layerCount := by
    show _ = (List.mergeSort _ _).length
    rw [List.length_mergeSort, List.length_map]
  have hbefore : history.UpTo
      ⟨.padding, Progress.fractionOf 0 builder.print.layers.ascending.length⟩ :=
    h.mono (Or.inl Nat.zero_lt_one)
  have hpadding := upTo_padLayers control builder.padding le_rfl hbefore
  rcases hpadded : padLayers control builder.padding builder.print.layers.ascending.length 0
    history builder.print.layers.ascending with ⟨moment, found⟩
  rw [hpadded] at hpadding
  simp only [finish, hpadded]
  cases found with
  | none =>
      apply Reported.of_upTo hpadding (by decide)
      intro model hmodel
      cases hmodel
  | some layers =>
      have hstatistics : (moment.report .statistics 1).UpTo ⟨.statistics, 1⟩ :=
        hpadding.report (Or.inl (by decide)) zero_le_one le_rfl
      by_cases hstop : control.stop (moment.report .statistics 1) = true
      · simp only [hstop, if_true]
        apply Reported.of_upTo hstatistics (by decide)
        intro model hmodel
        cases hmodel
      · have hfinalizing : ((moment.report .statistics 1).report .finalizing 1).UpTo
            ⟨.finalizing, 1⟩ :=
          hstatistics.report (Or.inl (by decide)) zero_le_one le_rfl
        simp only [if_neg hstop]
        refine ⟨List.pairwise_reverse.mpr hfinalizing.ordered, hfinalizing.shares, ?_, ?_⟩
        · intro model hmodel
          have hmodel' : model = builder.toModel := by
            cases hmodel
            rw [padLayers_eq_some hpadded]
            rfl
          have hreports := reports_padLayers hpadded
          rw [hmodel', ← hcount]
          show (⟨.finalizing, 1⟩ :: ⟨.statistics, 1⟩ :: moment.reports : List Progress).reverse.filter
            _ = _
          rw [hreports]
          exact filter_padding_reports _ _ h
        · exact ⟨fun _ => ⟨_, rfl⟩, fun _ => ⟨_, List.mem_cons_self, rfl⟩⟩

/-- A build of a stream by a builder that may have handled instructions before. -/
def resume (control : Control) (builder : Builder α) (items : List (BuildItem α)) :
    History × Outcome α :=
  match simulate control opening builder items with
  | (history, .error outcome) => (history, outcome)
  | (history, .ok builder) => finish control (history.report .simulating 1) builder

theorem run_eq_resume (control : Control) (settings : BuildSettings α)
    (items : List (BuildItem α)) :
    run control settings items = resume control (.new settings) items := rfl

theorem reported_resume (control : Control) (builder : Builder α) (items : List (BuildItem α)) :
    Reported (resume control builder items).1 (resume control builder items).2 := by
  have hsimulate := upTo_simulate (simulating_opening control) builder items
  have hcompleted := simulate_ne_completed control opening builder items
  unfold resume
  generalize simulate control opening builder items = result at hsimulate hcompleted ⊢
  rcases result with ⟨history, outcome | last⟩
  · exact .of_upTo hsimulate (by decide) fun model hmodel =>
      hcompleted model (congrArg Except.error hmodel)
  · exact reported_finish (hsimulate.report (.of_le .simulating le_rfl) zero_le_one le_rfl) last

theorem reported_start (failure : Failure Float) :
    Reported History.start (.failed failure) := by
  refine ⟨List.Pairwise.nil, ?_, ?_, ?_⟩
  · exact fun report hreport => absurd hreport List.not_mem_nil
  · intro model hmodel
    cases hmodel
  · constructor
    · rintro ⟨report, hreport, -⟩
      exact absurd hreport List.not_mem_nil
    · rintro ⟨model, hmodel⟩
      cases hmodel

/-- What every build reports, whoever controls it and whatever it builds. -/
structure ReportingRule (control : Control) : Prop where
  resumed : ∀ {α : Type} [Scalar α] (builder : Builder α) (items : List (BuildItem α)),
    Reported (resume control builder items).1 (resume control builder items).2
  run : ∀ {α : Type} [Scalar α] (settings : BuildSettings α) (items : List (BuildItem α)),
    Reported (Build.run control settings items).1 (Build.run control settings items).2
  loaded : ∀ settings bytes,
    Reported (load control settings bytes).1 (load control settings bytes).2

theorem reportingRule (control : Control) : ReportingRule control where
  resumed := reported_resume control
  run settings items := by
    rw [run_eq_resume]
    exact reported_resume control (.new settings) items
  loaded settings bytes := by
    unfold load
    cases settings.validate with
    | error error => exact reported_start _
    | ok valid =>
        cases bytes with
        | none => exact reported_start _
        | some bytes =>
            simp only [run_eq_resume]
            exact reported_resume control _ _

end Build
end Extrusion
