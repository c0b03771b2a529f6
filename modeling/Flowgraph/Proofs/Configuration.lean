import Flowgraph.Proofs.Decimal.Numeral
import Flowgraph.Proofs.Failing
import Flowgraph.Proofs.Outcome
import Flowgraph.Proofs.Table
import Flowgraph.Proofs.Validation.Reading
import Flowgraph.Service

/-! Configurations that are read from an environment. Whatever its variables say, the environment is refused with a
fault of the configuration or gives one that keeps its bounds and that an engine can be made from. The delays between
attempts are in order as well, unless a variable says that one of them is not a number: the check of the delays asks
for what is too small, and finds nothing. -/

namespace Flowgraph

namespace Configuration

open Reading

variable {env : Environment} {fs : Fields} {c : Configuration}

/-! From variables to fields -/

/-- A setting gives a field unless its variable is not set or leaves it standard. -/
theorem fieldsFrom_cons {name : String} {kind : SettingKind} {rest : List (String × SettingKind)}
    (h : fieldsFrom env ((name, kind) :: rest) = .ok fs) :
    ∃ o more, fieldsFrom env rest = .ok more ∧ fs = (o.map fun v => (name, v)).toList ++ more ∧
      match env.get? (variableName name) with
      | none => o = none
      | some value => understand (variableName name) value kind = .ok o := by
  unfold fieldsFrom at h
  cases hvalue : env.get? (variableName name) with
  | none =>
    rw [hvalue] at h
    exact ⟨none, fs, h, rfl, rfl⟩
  | some value =>
    rw [hvalue] at h
    obtain ⟨o, ho, h⟩ := bind_eq_ok.1 h
    cases o with
    | none => exact ⟨none, fs, h, rfl, ho⟩
    | some v =>
      obtain ⟨more, hmore, h⟩ := bind_eq_ok.1 h
      exact ⟨some v, more, hmore, (Except.ok.inj h).symm, ho⟩

theorem get?_fieldsFrom_of_notMem {list : List (String × SettingKind)} (h : fieldsFrom env list = .ok fs)
    {name : String} (hname : name ∉ list.map Prod.fst) : Table.get? fs name = none := by
  induction list generalizing fs with
  | nil =>
    obtain rfl := Except.ok.inj h
    rfl
  | cons setting rest ih =>
    obtain ⟨o, more, hmore, rfl, -⟩ := fieldsFrom_cons h
    rw [List.map_cons, List.mem_cons, not_or] at hname
    rw [Table.get?_toList_append, if_neg (Ne.symm hname.1)]
    exact ih hmore hname.2

/-- The field of a setting is what the text of its variable is understood as. -/
theorem get?_fieldsFrom {list : List (String × SettingKind)} (hnodup : (list.map Prod.fst).Nodup)
    (h : fieldsFrom env list = .ok fs) {name : String} {kind : SettingKind} (hmem : (name, kind) ∈ list) :
    match env.get? (variableName name) with
    | none => Table.get? fs name = none
    | some value => understand (variableName name) value kind = .ok (Table.get? fs name) := by
  induction list generalizing fs with
  | nil => cases hmem
  | cons setting rest ih =>
    obtain ⟨o, more, hmore, rfl, ho⟩ := fieldsFrom_cons h
    obtain ⟨hfirst, hrest⟩ := List.nodup_cons.1 hnodup
    rw [Table.get?_toList_append]
    rcases List.mem_cons.1 hmem with rfl | hmem
    · rw [if_pos rfl, get?_fieldsFrom_of_notMem hmore hfirst, Option.or_none]
      exact ho
    · have hname : name ∈ rest.map Prod.fst := List.mem_map_of_mem hmem
      rw [if_neg (ne_of_mem_of_not_mem hname hfirst).symm]
      exact ih hrest hmore hmem

theorem fieldsFrom_of_unset {list : List (String × SettingKind)}
    (h : ∀ setting ∈ list, env.get? (variableName setting.1) = none) : fieldsFrom env list = .ok [] := by
  induction list with
  | nil => rfl
  | cons setting rest ih =>
    obtain ⟨hsetting, hrest⟩ := List.forall_mem_cons.1 h
    unfold fieldsFrom
    rw [hsetting]
    exact ih hrest

/-! From fields to a configuration -/

/-- The settings that a configuration is made of. -/
@[mk_iff]
structure MadeOf (fs : Fields) (c : Configuration) : Prop where
  appName : setting fs "app_name" "autoflow" text = accepted c.appName
  appVersion : setting fs "app_version" "1.0.0" text = accepted c.appVersion
  debug : setting fs "debug" false boolean = accepted c.debug
  host : setting fs "host" "0.0.0.0" text = accepted c.host
  port : setting fs "port" 8000 readPort = accepted c.port
  reload : setting fs "reload" false boolean = accepted c.reload
  databaseUrl : setting fs "database_url" "sqlite:///./autoflow.db" readUrl = accepted c.databaseUrl
  databaseEcho : setting fs "database_echo" false boolean = accepted c.databaseEcho
  maxConcurrentNodes :
    setting fs "max_concurrent_nodes" 10 (within 1 none "Maximum concurrent nodes must be at least 1") =
      accepted c.maxConcurrentNodes
  defaultNodeTimeout :
    setting fs "default_node_timeout_ms" 30000 (within 1 none "Node timeout must be at least 1 millisecond") =
      accepted c.defaultNodeTimeout
  retryBaseDelay : setting fs "retry_base_delay" 1.0 float = accepted c.retryBaseDelay
  retryMaxDelay : setting fs "retry_max_delay" 30.0 float = accepted c.retryMaxDelay
  retryJitter : setting fs "retry_jitter" true boolean = accepted c.retryJitter
  logLevel : setting fs "log_level" .info (member LogLevel.all LogLevel.name) = accepted c.logLevel
  logFormat :
    setting fs "log_format" "%(asctime)s - %(name)s - %(levelname)s - %(message)s" text = accepted c.logFormat
  logFile : setting fs "log_file" none (nullable text) = accepted c.logFile
  logStructured : setting fs "log_structured" false boolean = accepted c.logStructured
  logMaxSize : setting fs "log_max_size" 10485760 integer = accepted c.logMaxSize
  logBackupCount : setting fs "log_backup_count" 5 integer = accepted c.logBackupCount
  corsOrigins : setting fs "cors_origins" [.text "*"] readItems = accepted c.corsOrigins

theorem settingsOf_eq_accepted : settingsOf fs = accepted c ↔ c.MadeOf fs := by
  cases c
  simp only [settingsOf, map_eq, seq_eq, apply_eq_accepted, accepted.injEq, exists_and_left, exists_eq_left',
    exists_exists_and_eq_and, mk.injEq, madeOf_iff, existsAndEq, and_true, and_assoc]

/-- What holds of the standard and of everything that is read holds of a setting. -/
theorem setting_induction {α : Type} {p : α → Prop} {name : String} {standard a : α} {read : Value → Reading α}
    (h : setting fs name standard read = accepted a) (hstandard : p standard)
    (hread : ∀ v a, read v = accepted a → p a) : p a := by
  rcases optional_eq_accepted.1 h with ⟨-, rfl⟩ | ⟨v, -, hv⟩
  · exact hstandard
  · exact hread v a hv

theorem within_bounds {low : Int} {high : Option Int} {reason : String} {v : Value} {n : Nat} (hlow : 0 ≤ low)
    (h : within low high reason v = accepted n) : low ≤ n ∧ ∀ bound ∈ high, n ≤ bound := by
  obtain ⟨k, -, hk⟩ := andThen_eq_accepted.1 h
  split_ifs at hk with hbounds
  · obtain rfl := accepted.inj hk
    simp only [Bool.and_eq_true, decide_eq_true_eq, Option.all_eq_true] at hbounds
    rw [Int.toNat_of_nonneg (hlow.trans hbounds.1)]
    exact hbounds
  · cases hk

/-! Bounds -/

/-- The whole numbers are within their bounds. -/
structure Bounded (c : Configuration) : Prop where
  port : 1 ≤ c.port ∧ c.port ≤ 65535
  maxConcurrentNodes : 1 ≤ c.maxConcurrentNodes
  defaultNodeTimeout : 1 ≤ c.defaultNodeTimeout

theorem MadeOf.bounded (h : c.MadeOf fs) : c.Bounded where
  port := by
    refine setting_induction (p := fun n => 1 ≤ n ∧ n ≤ 65535) h.port (by decide) fun v n hn => ?_
    obtain ⟨hlow, hhigh⟩ := within_bounds (by decide) hn
    have := hhigh 65535 rfl
    omega
  maxConcurrentNodes := by
    refine setting_induction (p := fun n => 1 ≤ n) h.maxConcurrentNodes (by decide) fun v n hn => ?_
    exact_mod_cast (within_bounds (by decide) hn).1
  defaultNodeTimeout := by
    refine setting_induction (p := fun n => 1 ≤ n) h.defaultNodeTimeout (by decide) fun v n hn => ?_
    exact_mod_cast (within_bounds (by decide) hn).1

/-! Delays -/

/-- The delays between attempts are not negative and grow up to a ceiling. -/
def Ordered (c : Configuration) : Prop :=
  0 ≤ c.retryBaseDelay ∧ c.retryBaseDelay ≤ c.retryMaxDelay

theorem delayFlaw?_eq_none :
    c.delayFlaw? = none ↔ ¬ c.retryBaseDelay < 0 ∧ ¬ c.retryMaxDelay < c.retryBaseDelay := by
  unfold delayFlaw?
  split_ifs <;> simp [*]

/-- Delays that pass their check are in order exactly when both are numbers. -/
theorem ordered_iff (h : c.delayFlaw? = none) :
    c.Ordered ↔ c.retryBaseDelay ≠ Float.nan ∧ c.retryMaxDelay ≠ Float.nan := by
  obtain ⟨hbase, hmax⟩ := delayFlaw?_eq_none.1 h
  have hzero : (0 : Float) ≠ Float.nan := by decide +kernel
  rw [Ordered, Decimal.le_iff, Decimal.le_iff]
  tauto

/-- A setting that is a number is what its variable's text is read as, and standard when the variable is not set. -/
theorem float_setting {name : String} {standard x : Float} (hname : (name, SettingKind.real) ∈ settings)
    (hfields : fieldsFrom env settings = .ok fs) (h : setting fs name standard float = accepted x) :
    env.get? (variableName name) = none ∧ x = standard ∨
      ∃ value, env.get? (variableName name) = some value ∧ Decimal.readFloat value.toList = some x := by
  have hget := get?_fieldsFrom (by decide) hfields hname
  have hx := optional_eq_accepted.1 h
  cases hvalue : env.get? (variableName name) with
  | none =>
    simp only [hvalue] at hget
    simp only [hget, true_and, reduceCtorEq, false_and, exists_false, or_false] at hx
    exact Or.inl ⟨rfl, hx⟩
  | some value =>
    simp only [hvalue, understand] at hget
    split at hget
    · next y hy =>
      simp only [← Except.ok.inj hget, reduceCtorEq, false_and, false_or, Option.some.injEq, exists_eq_left'] at hx
      obtain rfl := accepted.inj hx
      exact Or.inr ⟨value, rfl, hy⟩
    · cases hget

/-- The variable of a setting says that it is not a number. -/
def SaysNaN (env : Environment) (name : String) : Prop :=
  ∃ value, env.get? (variableName name) = some value ∧ Decimal.SpellsNaN value.toList

theorem float_setting_eq_nan {name : String} {standard x : Float} (hname : (name, SettingKind.real) ∈ settings)
    (hfields : fieldsFrom env settings = .ok fs) (h : setting fs name standard float = accepted x)
    (hstandard : standard ≠ Float.nan) : x = Float.nan ↔ SaysNaN env name := by
  unfold SaysNaN
  rcases float_setting hname hfields h with ⟨hvalue, rfl⟩ | ⟨value, hvalue, hread⟩
  · simp [hvalue, hstandard]
  · simp [hvalue, Decimal.readFloat_eq_nan hread]

/-! What can be made of a configuration -/

/-- The retry policy, the engine and, if logging can be set up, the whole service can be made. -/
structure Makes (c : Configuration) : Prop where
  engine (registry : Registry) (jitter : Option Number) (epoch : Moment) :
    ∃ backoff,
      Backoff.make (.float c.retryBaseDelay) (.float c.retryMaxDelay) Backoff.standardFactor jitter = .ok backoff ∧
        Engine.make registry c.maxConcurrentNodes c.defaultNodeTimeout backoff epoch =
          .ok ⟨registry, c.maxConcurrentNodes, c.defaultNodeTimeout, backoff, epoch, fun _ => none⟩
  service (registry : Registry) (suggester : Option Suggester) (epoch : Moment) (manual : String) :
    Errs (Service.make c registry suggester epoch manual) ↔
      Errs (LogSetup.make c.logLevel.name c.logStructured c.logFormat c.logFile.isSome)

theorem make_backoff (h : c.delayFlaw? = none) (jitter : Option Number) :
    Backoff.make (.float c.retryBaseDelay) (.float c.retryMaxDelay) Backoff.standardFactor jitter =
      .ok ⟨.float c.retryBaseDelay, .float c.retryMaxDelay, Backoff.standardFactor, jitter⟩ := by
  obtain ⟨hbase, hmax⟩ := delayFlaw?_eq_none.1 h
  have hless : Number.less (.float c.retryMaxDelay) (.float c.retryBaseDelay) = false := by
    simp only [Number.less, Number.compare?, if_neg hmax]
    split_ifs <;> rfl
  rw [Backoff.make, if_neg (mt Number.less_zero.1 hbase), hless]
  rfl

theorem Bounded.make_engine (h : c.Bounded) (registry : Registry) (backoff : Backoff) (epoch : Moment) :
    Engine.make registry c.maxConcurrentNodes c.defaultNodeTimeout backoff epoch =
      .ok ⟨registry, c.maxConcurrentNodes, c.defaultNodeTimeout, backoff, epoch, fun _ => none⟩ := by
  have hlimit := h.maxConcurrentNodes
  rw [Engine.make, if_neg (by omega), Int.toNat_natCast]

theorem Bounded.makes (hbounded : c.Bounded) (hdelays : c.delayFlaw? = none) : c.Makes where
  engine registry jitter epoch := ⟨_, make_backoff hdelays jitter, hbounded.make_engine registry _ epoch⟩
  service registry suggester epoch manual := by
    unfold Service.make Service.backoffOf
    refine errs_bind_of_not fun _ => ?_
    simp only [make_backoff hdelays none, hbounded.make_engine]
    exact not_errs_ok _

/-! Reading an environment -/

theorem ofFields_eq_accepted : ofFields fs = accepted c ↔ c.MadeOf fs ∧ c.delayFlaw? = none := by
  rw [ofFields, andThen_eq_accepted]
  constructor
  · rintro ⟨made, hmade, hcheck⟩
    split at hcheck
    · next hdelays =>
      obtain rfl := accepted.inj hcheck
      exact ⟨settingsOf_eq_accepted.1 hmade, hdelays⟩
    · cases hcheck
  · rintro ⟨hmade, hdelays⟩
    refine ⟨c, settingsOf_eq_accepted.2 hmade, ?_⟩
    rw [hdelays]

theorem ofEnvironment_eq_ok :
    ofEnvironment env = .ok c ↔ ∃ fs, fieldsFrom env settings = .ok fs ∧ c.MadeOf fs ∧ c.delayFlaw? = none := by
  unfold ofEnvironment
  rw [bind_eq_ok]
  refine exists_congr fun fs => and_congr_right fun _ => ?_
  rw [← ofFields_eq_accepted]
  cases ofFields fs <;> simp

/-- An environment that sets nothing gives the standard configuration. -/
theorem ofEnvironment_of_unset (h : ∀ setting ∈ settings, env.get? (variableName setting.1) = none) :
    ofEnvironment env = .ok {} := by
  refine ofEnvironment_eq_ok.2 ⟨[], fieldsFrom_of_unset h, settingsOf_eq_accepted.1 rfl, delayFlaw?_eq_none.2 ?_⟩
  decide +kernel

/-- An environment is refused with a fault of the configuration, or it gives a configuration within its bounds from
which everything can be made. Its delays are in order exactly if no variable says that one of them is not a number. -/
theorem ofEnvironment_outcome (env : Environment) (manual : String) :
    match ofEnvironment env with
    | .error flaw => (flaw.fault manual).kind = .configuration
    | .ok c =>
      c.Bounded ∧ c.Makes ∧ (c.Ordered ↔ ¬ SaysNaN env "retry_base_delay" ∧ ¬ SaysNaN env "retry_max_delay") := by
  cases h : ofEnvironment env with
  | error flaw => exact Fault.kind_of .configuration _ _
  | ok c =>
    obtain ⟨fs, hfields, hmade, hdelays⟩ := ofEnvironment_eq_ok.1 h
    refine ⟨hmade.bounded, hmade.bounded.makes hdelays, ?_⟩
    have hone : (1.0 : Float) ≠ Float.nan := by decide +kernel
    have hthirty : (30.0 : Float) ≠ Float.nan := by decide +kernel
    rw [ordered_iff hdelays, Ne, float_setting_eq_nan (by simp [settings]) hfields hmade.retryBaseDelay hone, Ne,
      float_setting_eq_nan (by simp [settings]) hfields hmade.retryMaxDelay hthirty]

def indefinite : Environment :=
  [("AUTOFLOW_RETRY_BASE_DELAY", "nan")]

/-- What is not a number is neither below zero nor above the ceiling, and passes both checks. -/
theorem indefinite_unordered : ∃ c, ofEnvironment indefinite = .ok c ∧ ¬ c.Ordered := by
  let c : Configuration := { retryBaseDelay := Decimal.notANumber }
  have hfields : fieldsFrom indefinite settings = .ok [("retry_base_delay", .float Decimal.notANumber)] := rfl
  have hmade : c.MadeOf [("retry_base_delay", .float Decimal.notANumber)] := settingsOf_eq_accepted.1 rfl
  have hdelays : c.delayFlaw? = none := by decide +kernel
  refine ⟨c, ofEnvironment_eq_ok.2 ⟨_, hfields, hmade, hdelays⟩, fun h => ?_⟩
  exact absurd h.1 (by decide +kernel)

end Configuration

end Flowgraph
