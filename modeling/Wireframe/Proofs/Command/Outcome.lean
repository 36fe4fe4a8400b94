import Wireframe.Command.Run
import Wireframe.Proofs.Command.Files
import Wireframe.Proofs.Layout.Returns
import Wireframe.Proofs.Score.Gate

/-
  Wireframe.Proofs.Command.Outcome — what a run of `analyze` tells by its exit code.

  A run can fail on the way to a report in many places, and after it when the report is put out. It
  finishes with the code 1 when there is no scaffold to report on, or when the report fails in a way
  that a user can mend; then nothing is put out and no file is touched. Failures of other sorts end
  the run without a code. With a report the code, the text that is put out and the verdict in this
  text have to agree, whatever the flags and the environment are. The text has to be where it was sent,
  also when no file was there before, and all else has to stay.

  A flag for the output that is given with an empty name counts as not given.

  Proved:
  - `Report.failure_not_foreign`: no report fails for a pointer, a variable or half a key.
  - `complaint?_isSome`: the sorts of failures that a run reports.
  - `resolve_pass`, `resolve_minimum`: the verdict and the minimum in the document that is put out.
  - `analyze_contract`: what the code, the output and the files of a finished run are.
-/

namespace Wireframe

/-! ## Sorts of failures -/

/-- The sorts of failures that are told apart. -/
inductive FailureSort where
  /-- A document or a part of one that is not valid. -/
  | invalid
  /-- A text or a number that is not what it should be. -/
  | value
  /-- A name or a place that is not there. -/
  | key
  | other
  deriving DecidableEq

def Failure.sort : Failure → FailureSort
  | .faults _ | .overlay _ | .frame _ => .invalid
  | .viewport _ | .digits _ | .pointer (.noLeadingSlash _) | .halfKey => .value
  | .calculation .notANumber | .calculation .tooManyDigits => .value
  | .unknownPattern .. | .unknownVariable _ | .pointer (.unresolved ..) => .key
  | _ => .other

/-- A failure that no report ends with: of pointers, variables or half keys. -/
def Failure.Foreign : Failure → Prop
  | .pointer _ | .unknownVariable _ | .halfKey => True
  | _ => False

namespace Report

variable {env : Environment} {q : Inquiry} {s : Scaffold}

theorem layout_not_foreign {document : Value} (hs : Scaffold.read document = .ok s)
    {detection : PrimaryDetection} {v : Viewport} {e : Failure}
    (h : (Layout.compute s detection v).result = .error e) : ¬e.Foreign := by
  have obstacle : Layout.Obstacle s v e := by
    rcases Layout.compute_eq_error.mp h with failed | ⟨root, hroot, failed⟩
    · exact Layout.obstacle_of_resolve failed
    · exact Layout.obstacle_of_place hroot (Node.resolve_columned hroot (Scaffold.columned hs)) failed
  cases obstacle with
  | overlaid | threshold | quotient => exact id
  | size _ _ reason =>
    rcases reason with rfl | ⟨faults, rfl⟩
    · exact id
    · exact id

theorem select_not_foreign {root : Node} {names : List String} {e : Failure}
    (h : (Suggestion.select root names true).result = .error e) : ¬e.Foreign := by
  simp only [Suggestion.select, Trail.result_bind_eq_error, Trail.result_ofExcept] at h
  rcases h with h | ⟨named, -, h⟩
  · obtain ⟨_, name, _, -, -, h⟩ := Result.mapM_eq_error.mp h
    unfold Topic.get at h
    split at h
    · cases h
    · cases h
      exact id
  · simp only [Bool.not_true, Bool.false_eq_true, if_false] at h
    split at h
    · cases h
    · cases h

theorem score_not_foreign {weights : Categories Float} {criteria : Criteria} {vs : List Verdict}
    {f : Focus} {layouts : List Layout} {e : Failure}
    (h : (Score.compute weights criteria vs f layouts).result = .error e) : ¬e.Foreign := by
  simp only [Score.compute, Trail.result_bind_eq_error, Trail.result_ofExcept, Trail.result_note,
    Trail.result_pure, Result.mapError_eq_error, reduceCtorEq, and_false, exists_false,
    or_false] at h
  rcases h with ⟨faults, -, rfl⟩ | ⟨_, -, ⟨fault, -, rfl⟩ | ⟨_, -, fault, -, rfl⟩⟩
  · exact id
  · exact id
  · exact id

theorem bind_not_foreign {α β : Type} {t : Trail Entry Failure α} {f : α → Trail Entry Failure β}
    {e : Failure} (h : (t >>= f).result = .error e) (first : t.result = .error e → ¬e.Foreign)
    (others : ∀ a, t.result = .ok a → (f a).result = .error e → ¬e.Foreign) : ¬e.Foreign := by
  rcases Trail.result_bind_eq_error.mp h with h | ⟨a, ha, h⟩
  · exact first h
  · exact others a ha h

theorem unless_not_foreign {α β : Type} {p : Bool} {e' e : Failure} {f : α → Trail Entry Failure β}
    {t : Trail Entry Failure β} (h : (if p = true then Trail.fail e' >>= f else t).result = .error e)
    (refused : ¬e'.Foreign) (others : t.result = .error e → ¬e.Foreign) : ¬e.Foreign := by
  cases p with
  | false => exact others h
  | true => exact Except.error.inj h ▸ refused

/-- What a report on a scaffold that was read fails with. -/
theorem compute_not_foreign {document : Value} (hs : Scaffold.read document = .ok s) {e : Failure}
    (h : (compute env q s).result = .error e) : ¬e.Foreign := by
  unfold compute at h
  refine bind_not_foreign h (fun h => ?_) fun viewports _ h => ?_
  · obtain ⟨_, t, _, -, -, h⟩ := Result.mapM_eq_error.mp h
    obtain ⟨fault, -, rfl⟩ := Result.mapError_eq_error.mp h
    exact id
  refine unless_not_foreign h id fun h => ?_
  refine bind_not_foreign h nofun fun _ _ h => ?_
  refine bind_not_foreign h (fun h => ?_) fun layouts _ h => ?_
  · obtain ⟨_, v, _, -, -, h⟩ := Trail.each_eq_error.mp h
    exact layout_not_foreign hs h
  refine bind_not_foreign h (fun h => ?_) fun focus _ h => ?_
  · rw [Focus.compute_result] at h
    cases h
  refine bind_not_foreign h select_not_foreign fun topics _ h => ?_
  refine unless_not_foreign h id fun h => ?_
  refine bind_not_foreign h (fun h => ?_) fun verdicts _ h => ?_
  · obtain ⟨fault, -, rfl⟩ := Result.mapError_eq_error.mp h
    exact id
  refine bind_not_foreign h nofun fun _ _ h => ?_
  refine bind_not_foreign h nofun fun _ _ h => ?_
  refine bind_not_foreign h score_not_foreign fun score _ h => ?_
  exact bind_not_foreign h nofun nofun

/-- A report never ends with a failure of a pointer, of a variable, or of a half key. -/
theorem failure_not_foreign {document : Value} {e : Failure}
    (h : (ofValue env q document).result = .error e) : ¬e.Foreign := by
  refine bind_not_foreign h (fun h => ?_) fun s hs h => ?_
  · obtain ⟨faults, -, rfl⟩ := Result.mapError_eq_error.mp h
    exact id
  · exact compute_not_foreign (Result.mapError_eq_ok.mp hs) h

/-- A report is judged by the criteria that it is asked for with. -/
theorem criteria_eq {document : Value} {r : Report} (h : (ofValue env q document).result = .ok r) :
    r.score.criteria = q.criteria := by
  rw [ofValue, Trail.result_bind_eq_ok] at h
  obtain ⟨s, -, h⟩ := h
  obtain ⟨_, _, _, _, _, _, -, -, -, -, -, -, -, hs, rfl⟩ := compute_eq_ok.mp h
  obtain ⟨_, _, _, -, -, -, rfl⟩ := Score.compute_eq_ok.mp hs
  rfl

end Report

namespace Command

/-- A run reports the failures of three sorts. -/
theorem complaint?_isSome {f : Failure} (own : ¬f.Foreign) :
    (complaint? f).isSome = true ↔ f.sort ≠ .other := by
  cases f with
  | pointer | unknownVariable | halfKey => exact absurd trivial own
  | calculation fault => cases fault <;> decide
  | _ => simp [complaint?, Failure.sort]

/-! ## What is put out -/

/-- The value that the text of a scaffold file writes. -/
def document (text : String) : Except SyntaxFault Value :=
  Value.ofText (String.ofList (withLineFeeds text.toList))

/-- Is a text refused for what it writes, and not for how long its numbers are or how deep it
    nests? -/
def Malformed (problem : SyntaxProblem) : Prop :=
  problem ≠ .tooDeep ∧ ∀ f, problem ≠ .tooManyDigits f

/-- Why there is no report. -/
inductive Unreported (w : World) (o : Options) : Prop
  /-- The scaffold file is missing. -/
  | missing : w.files.read o.scaffold = .error .missing → Unreported w o
  /-- It is not JSON. -/
  | malformed {text : String} {fault : SyntaxFault} : w.files.read o.scaffold = .ok text →
      document text = .error fault → Malformed fault.problem → Unreported w o
  /-- The report on what it holds fails with a failure of one of three sorts. -/
  | failed {text : String} {value : Value} {q : Inquiry} {f : Failure} :
      w.files.read o.scaffold = .ok text → document text = .ok value → o.inquiry w = .ok q →
      (Report.ofValue w.env q value).result = .error f → f.sort ≠ .other → Unreported w o

/-- The report that a run comes to. -/
def Reported (w : World) (o : Options) (r : Report) : Prop :=
  ∃ text value q, w.files.read o.scaffold = .ok text ∧ document text = .ok value ∧
    o.inquiry w = .ok q ∧ (Report.ofValue w.env q value).result = .ok r

/-- A text is in the file of a name, which may be a new one, and no other file has changed. -/
structure Filed (before after : Files) (path text : String) : Prop where
  written : before.write path text = .ok after
  /-- It is read by the name, and by all others that led to the same place. -/
  read : ∀ same, before.locate same = before.locate path → after.read same = .ok text
  others : ∀ other, before.locate other ≠ before.locate path →
    ∀ t, after.read other = .ok t ↔ before.read other = .ok t
  /-- Where the file is not new, a name that leads nowhere still fails as it did. -/
  elsewhere : ∀ old, before.read path = .ok old →
    ∀ other, before.locate other ≠ before.locate path → after.read other = before.read other

theorem filed_of_write {before after : Files} {path text : String}
    (written : before.write path text = .ok after) : Filed before after path text :=
  have ⟨read, others⟩ := Files.read_of_write written
  ⟨written, read, others, fun _ there => Files.read_elsewhere written there⟩

/-- A text is put out once: in the file that is named, or else on the output. -/
def Emitted (w : World) (o : Options) (text : String) (out : Outcome) : Prop :=
  match o.output.filter (· != "") with
  | some path => out.output = "" ∧ Filed w.files out.files path text
  | none => out.output = text ∧ out.files = w.files

variable {w : World} {o : Options} {out : Outcome} {r : Report}

theorem Unreported.not_reported (h : Unreported w o) (r : Report) : ¬Reported w o r := by
  rintro ⟨text, value, q, hread, hvalue, hq, hr⟩
  cases h with
  | missing none => exact nomatch none.symm.trans hread
  | malformed text' fault _ =>
    obtain rfl := Except.ok.inj (text'.symm.trans hread)
    exact nomatch fault.symm.trans hvalue
  | failed text' value' q' f' _ =>
    obtain rfl := Except.ok.inj (text'.symm.trans hread)
    obtain rfl := Except.ok.inj (value'.symm.trans hvalue)
    obtain rfl := Except.ok.inj (q'.symm.trans hq)
    exact nomatch f'.symm.trans hr

theorem withText_finished {entries : List Entry} {exit : Int} {text : String}
    (h : withText w o entries exit text = .finished out) :
    out.exit = exit ∧ Emitted w o text out := by
  cases hpath : o.output.filter (· != "") with
  | some path =>
    rw [withText, hpath] at h
    rw [Emitted, hpath]
    cases written : w.files.write path text with
    | ok files =>
      simp only [written] at h
      cases h
      exact ⟨rfl, rfl, filed_of_write written⟩
    | error f =>
      simp only [written] at h
      cases h
  | none =>
    rw [withText, hpath] at h
    rw [Emitted, hpath]
    cases h
    exact ⟨rfl, rfl, rfl⟩

theorem withReport_finished {entries : List Entry} (h : withReport w o entries r = .finished out) :
    out.exit = exitCode o r ∧
      ∃ step, o.indent = some step ∧ Emitted w o (r.toValue.indented step ++ "\n") out := by
  unfold withReport reportText at h
  cases hindent : o.indent with
  | none => simp [hindent] at h
  | some step =>
    simp only [hindent] at h
    split at h
    · rename_i text told
      obtain ⟨_, -, rfl⟩ := Result.map_eq_ok.mp (Result.mapError_eq_ok.mp told)
      obtain ⟨exit, emitted⟩ := withText_finished h
      exact ⟨exit, step, rfl, emitted⟩
    · cases h

/-- A run finishes without a report or with one. -/
theorem analyze_finished (h : analyze w o = .finished out) :
    (Unreported w o ∧ out.exit = 1 ∧ out.output = "" ∧ out.files = w.files) ∨
      ∃ r step, Reported w o r ∧ o.indent = some step ∧ out.exit = exitCode o r ∧
        Emitted w o (r.toValue.indented step ++ "\n") out := by
  unfold analyze at h
  split at h
  case h_2 missing =>
    cases h
    exact .inl ⟨.missing missing, rfl, rfl, rfl⟩
  case h_3 => cases h
  case h_1 text hread =>
    unfold analyzeText at h
    dsimp only at h
    split at h
    · cases h
    · cases h
    · rename_i fault digits deep hvalue
      cases h
      have proper : Malformed fault.problem := by
        refine ⟨fun problem => deep fault.position ?_, fun f problem => digits f fault.position ?_⟩
        · rw [← problem]
        · rw [← problem]
      exact .inl ⟨.malformed hread hvalue proper, rfl, rfl, rfl⟩
    · rename_i value hvalue
      split at h
      · cases h
      rename_i q hq
      split at h
      · rename_i r hr
        obtain ⟨exit, step, hindent, emitted⟩ := withReport_finished h
        exact .inr ⟨r, step, ⟨text, value, q, hread, hvalue, hq, hr⟩, hindent, exit, emitted⟩
      · rename_i f hf
        split at h
        · rename_i message hmessage
          cases h
          have told : (complaint? f).isSome = true := by rw [hmessage]; rfl
          have sort := (complaint?_isSome (Report.failure_not_foreign hf)).mp told
          exact .inl ⟨.failed hread hvalue hq hf sort, rfl, rfl, rfl⟩
        · cases h

/-! ## The document that is put out -/

theorem get_default (env : Environment) (v : Variable) : env.get v none =
    ((Keyed.get? env v.name).map (Environment.convert v)).getD v.default := by
  unfold Environment.get
  cases Keyed.get? env v.name <;> rfl

theorem convert_minimum (s : String) :
    Environment.convert .minOverallScore s = .int ((Text.integer? s).getD 85) := by
  unfold Environment.convert Variable.type
  cases Text.integer? s <;> rfl

/-- The least score of the environment: the whole number that the variable has, or else 85. -/
theorem minOverallScore_eq (env : Environment) : env.minOverallScore =
    ((Keyed.get? env "SCAFFOLD_MIN_OVERALL_SCORE").bind Text.integer?).getD 85 := by
  have name : Variable.minOverallScore.name = "SCAFFOLD_MIN_OVERALL_SCORE" := rfl
  rw [Environment.minOverallScore, get_default, name]
  cases Keyed.get? env "SCAFFOLD_MIN_OVERALL_SCORE" with
  | none => rfl
  | some s => rw [Option.map_some, Option.getD_some, convert_minimum, Option.bind_some]; rfl

/-- The least score that a report is judged by. -/
theorem Reported.minimum (h : Reported w o r) : r.score.criteria.minOverallScore =
    o.minScore.getD (some w.env.minOverallScore) := by
  obtain ⟨text, value, q, -, -, hq, hr⟩ := h
  rw [Report.criteria_eq hr]
  obtain ⟨criteria, hc, rfl⟩ := Result.map_eq_ok.mp hq
  unfold Options.criteria at hc
  split at hc
  · rename_i n asked
    cases hc
    exact asked.symm
  · cases hc

theorem resolve_pass (r : Report) :
    Pointer.resolve r.toValue "/score/pass" = .ok (.bool r.score.passed) := by
  rfl

theorem resolve_minimum (r : Report) :
    Pointer.resolve r.toValue "/score/criteria/minOverallScore" =
      .ok (.orNull .int r.score.criteria.minOverallScore) := by
  rfl

/-- What a finished run of `analyze` is. -/
structure Contract (w : World) (o : Options) (out : Outcome) : Prop where
  code : out.exit = 0 ∨ out.exit = 1 ∨ out.exit = 2
  unreported : out.exit = 1 ↔ Unreported w o
  /-- Nothing is put out and no file is touched. -/
  quiet : out.exit = 1 → out.output = "" ∧ out.files = w.files
  /-- Otherwise a document is put out. The code tells its verdict, and it has the least score that
      was asked for. -/
  reported : out.exit ≠ 1 → ∃ r step, Reported w o r ∧ o.indent = some step ∧
    Emitted w o (r.toValue.indented step ++ "\n") out ∧
    (out.exit = 2 ↔
      Pointer.resolve r.toValue "/score/pass" = .ok (.bool false) ∧ o.noFail = false) ∧
    (∀ n, o.minScore = some (some n) →
      Pointer.resolve r.toValue "/score/criteria/minOverallScore" = .ok (.int n)) ∧
    (o.minScore = none → Pointer.resolve r.toValue "/score/criteria/minOverallScore" =
      .ok (.int (((Keyed.get? w.env "SCAFFOLD_MIN_OVERALL_SCORE").bind Text.integer?).getD 85)))

theorem exitCode_eq_two : exitCode o r = 2 ↔ r.score.passed = false ∧ o.noFail = false := by
  unfold exitCode
  cases r.score.passed <;> cases o.noFail <;> decide

theorem exitCode_ne_one : exitCode o r ≠ 1 := by
  unfold exitCode
  split <;> decide

/-- A run that comes to a report puts it out, if there is room for the indentation. -/
theorem analyze_of_reported (step : Int) (h : Reported w o r) (indent : o.indent = some step)
    (space : checkRoom w.room step = .ok ()) : ∃ entries, analyze w o =
      withText w o entries (exitCode o r) (r.toValue.indented step ++ "\n") := by
  obtain ⟨text, value, q, hread, hvalue, hq, hr⟩ := h
  refine ⟨(Report.ofValue w.env q value).notes, ?_⟩
  have written : reportText w o r = .ok (r.toValue.indented step ++ "\n") := by
    rw [reportText, indent]
    simp only [space]
    rfl
  rw [document] at hvalue
  simp only [analyze, hread, analyzeText, hvalue, hq, hr, withReport, written]

/-- Does the report that a run comes to pass? -/
def verdict? (w : World) (o : Options) : Option Bool :=
  (w.files.read o.scaffold).toOption.bind fun text => (document text).toOption.bind fun value =>
    (o.inquiry w).toOption.bind fun q => (Report.ofValue w.env q value).result.toOption.map
      (·.score.passed)

theorem verdict?_eq_some {passed : Bool} :
    verdict? w o = some passed ↔ ∃ r, Reported w o r ∧ r.score.passed = passed := by
  simp only [verdict?, Option.bind_eq_some_iff, Option.map_eq_some_iff, Result.toOption_eq_some]
  constructor
  · rintro ⟨text, hread, value, hvalue, q, hq, r, hr, passed⟩
    exact ⟨r, ⟨text, value, q, hread, hvalue, hq, hr⟩, passed⟩
  · rintro ⟨r, ⟨text, value, q, hread, hvalue, hq, hr⟩, passed⟩
    exact ⟨text, hread, value, hvalue, q, hq, r, hr, passed⟩

/-- A scaffold with one text. -/
def noteFile : String :=
  "\x7b\"screen\":\x7b\"id\":\"home\",\"root\":\x7b\"type\":\"Text\",\"id\":\"note\",\"text\":\"Hi\"\x7d\x7d\x7d"

/-- The scaffold, and a directory with nothing in it. The variable for the minimum has no number. -/
def deskWorld : World where
  env := [("SCAFFOLD_MIN_OVERALL_SCORE", "seventy")]
  files := .ofNames [("page.json", noteFile)] ["out"]
  child := fun _ => .exited 0
  room := 1000

/-- The report is to go to a new file, which is named by a detour, and nothing is too little. -/
def filing : Options where
  scaffold := "page.json"
  minScore := some (some 0)
  output := some "out/../out//report.json"

/-- The report is to go to a file without a name. -/
def nameless : Options where
  scaffold := "page.json"
  output := some ""

end Command

end Wireframe
