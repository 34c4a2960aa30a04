/-
The parameters in the calibration server (`tools/calibration/server.py`).

`validate_parameters` guards both ends: what the browser sends, before it becomes a
`set` or `config` line, and what the firmware reports, before it becomes
`calibration.h`.  A number is the rational its text denotes, and the compiler and
the JSON decoder read numbers exactly.

* `accepted_parameters` — what an accepted dictionary holds under each name;
* `compiled_header` — the compiler reads back what `calibration_header` wrote.
-/
import Base101.DecimalText
import Base101.Protocol

namespace CalibrationServer

open CString

/-! ### Decoded JSON -/

/-- A decoded value, as far as the server tells them apart. -/
inductive JsonValue
  | bool (b : Bool)
  | int (n : ℤ)
  | float (v : ℚ)
  /-- `NaN` and the infinities, which `json.loads` lets through. -/
  | nonfinite
  | other
deriving DecidableEq

/-- The value of an `int` or a finite `float`. -/
def JsonValue.number : JsonValue → Option ℚ
  | .int n => some n
  | .float v => some v
  | _ => none

/-- A dictionary: each key once, in the order of insertion. -/
structure Dict where
  items : List (String × JsonValue)
  nodup : (items.map Prod.fst).Nodup

namespace Dict

def keys (d : Dict) : List String := d.items.map Prod.fst

def number (d : Dict) (key : String) : Option ℚ := (d.items.lookup key).bind JsonValue.number

end Dict

/-- A number of a JSON text: an `int` without a point or an exponent. -/
def jsonNumber (text : List Char) : JsonValue :=
  match (strtod text : Option (Strtod ℚ × List Char)) with
  | some (.number v, []) =>
    if text.all fun c => c.isDigit || c = '-' then .int ⌊v⌋ else .float v
  | _ => .other

/-! ### Validation -/

/-- `BASIC_LIMITS`. -/
def basicLimits : List (String × ℚ × ℚ) :=
  [("ax", 0.01, 5), ("jx", 0.01, 50), ("aw", 0.01, 20), ("jw", 0.01, 200), ("k_icr", 1, 5)]

/-- `LIMITS`. -/
def limits : List (String × ℚ × ℚ) :=
  basicLimits ++
  [("radius", 0.02, 0.1), ("separation", 0.15, 0.5), ("ramp", 1, 255), ("rpm_max", 20, 200),
   ("vx_max", 0.05, 0.4), ("wz_max", 0.1, 0.8), ("lpf", 1, 80), ("kp", 0, 2), ("ki", 0, 2),
   ("correction_max", 0, 1), ("deadband", 0, 0.05), ("correction_accel", 0.01, 2),
   ("correction_jerk", 0.01, 20), ("yaw_feedback", 0, 1)]

/-- `INTEGER_PARAMETERS`. -/
def integerParameters : List String := ["ramp", "rpm_max", "yaw_feedback"]

/-- Why a request is refused. -/
inductive RequestError
  | keys
  | notNumber (name : String)
  | range (name : String) (low high : ℚ)
  | integer (name : String)
  | overflow
  | incomplete
  | busy
  | firmware
  | notStopped
  | feedback
deriving DecidableEq

/-- The text of the exception; a limit prints as it is written. -/
def RequestError.text : RequestError → String
  | .keys => "provide the five basic parameters or the complete configuration"
  | .notNumber name => name ++ " must be a number"
  | .range name low high =>
    name ++ " must be finite and between " ++ String.ofList (formatG 9 low) ++ " and " ++
      String.ofList (formatG 9 high)
  | .integer name => name ++ " must be an integer"
  | .overflow => "int too large to convert to float"
  | .incomplete => "complete calibration parameters required"
  | .busy => "stop the trial or wait for saving before changing parameters"
  | .firmware => "new firmware required for advanced configuration"
  | .notStopped => "stop and disarm before saving"
  | .feedback => "fresh feedback confirming all four brakes required"

/-- The range of a finite value, and its integrality. -/
def checkNumber (name : String) (low high v : ℚ) : Except RequestError Unit :=
  if ¬(low ≤ v ∧ v ≤ high) then .error (.range name low high)
  else if name ∈ integerParameters ∧ v ≠ (Double.toInt v : ℚ) then .error (.integer name)
  else .ok ()

/-- One pass of the loop of `validate_parameters`. -/
def checkParameter (item : String × JsonValue) : Except RequestError Unit :=
  match limits.lookup item.1 with
  | none => .error .keys -- the keys have been compared
  | some (low, high) =>
    match item.2 with
    | .bool _ | .other => .error (.notNumber item.1)
    | .nonfinite => .error (.range item.1 low high)
    -- `isfinite` converts to a `float`, which has no room for every integer
    | .int n =>
      if 2 ^ 1024 - 2 ^ 970 ≤ |n| then .error .overflow else checkNumber item.1 low high n
    | .float v => checkNumber item.1 low high v

def checkParameters : List (String × JsonValue) → Except RequestError Unit
  | [] => .ok ()
  | item :: items => do
    checkParameter item
    checkParameters items

/-- `set(values) == set(table)`. -/
def Dict.SameKeys (d : Dict) (table : List (String × ℚ × ℚ)) : Prop :=
  d.keys ⊆ table.map Prod.fst ∧ table.map Prod.fst ⊆ d.keys

instance (d : Dict) (table : List (String × ℚ × ℚ)) : Decidable (d.SameKeys table) :=
  inferInstanceAs (Decidable (_ ∧ _))

/-- `validate_parameters`; `none` is a value that is no dictionary. -/
def validateParameters : Option Dict → Except RequestError Dict
  | none => .error .keys
  | some d =>
    if ¬(d.SameKeys limits ∨ d.SameKeys basicLimits) then .error .keys
    else do
      checkParameters d.items
      .ok d

/-! ### Configuration -/

/-- The values of a table's keys, in its order, as `format(value, '.9g')` prints them. -/
def printed (d : Dict) (table : List (String × ℚ × ℚ)) : Option (List (List Char)) :=
  table.mapM fun row => (d.number row.1).map (formatG 9)

/-- The command of `/api/parameters`; `none` when a key is missing. -/
def parameterCommand (d : Dict) : Option (List Char) :=
  if d.items.length = 5 then
    (printed d basicLimits).map fun words => "set ".toList ++ [' '].intercalate words
  else (printed d limits).map fun words => "config ".toList ++ [' '].intercalate words

/-- The next `request_sequence`. -/
def nextSequence (n : ℕ) : ℕ := n % 2147483647 + 1

/-- The line `_exchange` sends, without its newline. -/
def outgoing (sequence : ℕ) (command : List Char) : List Char :=
  Nat.toDigits 10 sequence ++ ' ' :: command

/-- What the settings read of the last telemetry. -/
structure Telemetry where
  atRest : Bool
  motionEnabled : Bool
  brakeOkMask : Option ℤ
  features : List String
  parameters : Option Dict

/-- The fields of `SerialLink` that the settings read. -/
structure LinkView where
  saving : Bool
  armed : Bool
  trial : Bool
  sequence : Bool
  /-- `time.monotonic()` at the last reply. -/
  received : Option ℚ
  latest : Option Telemetry

/-- `/api/parameters`, up to the request it sends. -/
def postParameters (link : LinkView) (payload : Option Dict) :
    Except RequestError (Option (List Char)) := do
  let values ← validateParameters payload
  if link.trial || link.sequence || link.saving then .error .busy
  else if 5 < values.items.length ∧
      ∀ current ∈ link.latest, "full_config" ∉ current.features then .error .firmware
  else .ok (parameterCommand values)

/-! ### Saving -/

/-- A line of the initializer. -/
def headerField (key : String) (text : List Char) : List Char :=
  [' ', ' ', ' ', ' ', '.'] ++ key.toList ++ [' ', '=', ' '] ++ text ++ [',', ' ', '\\']

def headerFirst : List (List Char) :=
  [("// Generated by the Base101 calibration UI. " ++
      "Build and flash the ROS firmware after saving.").toList,
    "#ifndef BASE101_CALIBRATION_H".toList, "#define BASE101_CALIBRATION_H".toList,
    "#include \"calibration_protocol.h\"".toList,
    "#define BASE101_CALIBRATION_PARAMETERS ((calibration_parameters_t)\x7b \\".toList]

def headerLast : List (List Char) := ["\x7d)".toList, "#endif".toList, []]

/-- The file, from the printed values. -/
def headerText (words : List (List Char)) : List Char :=
  ['\n'].intercalate
    (headerFirst ++ List.zipWith headerField (limits.map Prod.fst) words ++ headerLast)

/-- `calibration_header`. -/
def calibrationHeader (d : Dict) : Except RequestError (Option (List Char)) := do
  let values ← validateParameters (some d)
  if values.items.length ≠ limits.length then .error .incomplete
  else .ok ((printed values limits).map headerText)

/-- `TELEMETRY_TIMEOUT_S`. -/
def telemetryTimeoutS : ℚ := 1

/-- `save_settings`: the parameters and the text of the header, which is then written. -/
def saveSettings (link : LinkView) (now : ℚ) : Except RequestError (Dict × Option (List Char)) :=
  match link.latest, link.received with
  | some current, received => do
    if link.saving || link.armed || link.trial || link.sequence || !current.atRest ||
        current.motionEnabled then .error .notStopped
    else if (∀ t ∈ received, telemetryTimeoutS < now - t) ∨ current.brakeOkMask ≠ some 15 then
      .error .feedback
    else
      let parameters ← validateParameters current.parameters
      if parameters.items.length ≠ limits.length then .error .incomplete
      else
        let text ← calibrationHeader parameters
        .ok (parameters, text)
  | none, _ => .error .notStopped

/-! ### The parameters by name -/

/-- The members of `calibration_parameters_t`, in the order of the reply. -/
def named (p : CalibrationParameters ℚ) : List (String × ℚ) :=
  [("ax", p.ax), ("jx", p.jx), ("aw", p.aw), ("jw", p.jw), ("k_icr", p.kIcr),
   ("radius", p.radius), ("separation", p.separation), ("ramp", p.ramp), ("rpm_max", p.rpmMax),
   ("vx_max", p.vxMax), ("wz_max", p.wzMax), ("lpf", p.lpf), ("kp", p.kp), ("ki", p.ki),
   ("correction_max", p.correctionMax), ("deadband", p.deadband),
   ("correction_accel", p.correctionAccel), ("correction_jerk", p.correctionJerk),
   ("yaw_feedback", p.yawFeedback)]

/-- The record whose members are the values of their names. -/
def ofNames (f : String → Option ℚ) : Option (CalibrationParameters ℚ) := do
  let ax ← f "ax"
  let jx ← f "jx"
  let aw ← f "aw"
  let jw ← f "jw"
  let kIcr ← f "k_icr"
  let radius ← f "radius"
  let separation ← f "separation"
  let ramp ← f "ramp"
  let rpmMax ← f "rpm_max"
  let vxMax ← f "vx_max"
  let wzMax ← f "wz_max"
  let lpf ← f "lpf"
  let kp ← f "kp"
  let ki ← f "ki"
  let correctionMax ← f "correction_max"
  let deadband ← f "deadband"
  let correctionAccel ← f "correction_accel"
  let correctionJerk ← f "correction_jerk"
  let yawFeedback ← f "yaw_feedback"
  some { ax, jx, aw, jw, kIcr, radius, separation, ramp, rpmMax, vxMax, wzMax, lpf, kp, ki,
         correctionMax, deadband, correctionAccel, correctionJerk, yawFeedback }

/-- The parameters a dictionary holds, if it holds them all. -/
def Dict.parameters (d : Dict) : Option (CalibrationParameters ℚ) := ofNames d.number

theorem named_keys (p : CalibrationParameters ℚ) :
    (named p).map Prod.fst = limits.map Prod.fst := rfl

theorem limits_nodup : (limits.map Prod.fst).Nodup := by decide

/-- The parameters of a reply, printed with `%.6f` and decoded. -/
def reported (p : CalibrationParameters ℚ) : Dict where
  items := (named p).map fun x => (x.1, jsonNumber (formatF 6 x.2))
  nodup := by
    rw [List.map_map]
    exact limits_nodup

theorem ofNames_eq {f : String → Option ℚ} {p : CalibrationParameters ℚ}
    (h : ∀ x ∈ named p, f x.1 = some x.2) : ofNames f = some p := by
  simp only [named, List.forall_mem_cons] at h
  obtain ⟨h1, h2, h3, h4, h5, h6, h7, h8, h9, h10, h11, h12, h13, h14, h15, h16, h17, h18, h19,
    -⟩ := h
  rw [ofNames]
  simp only [h1, h2, h3, h4, h5, h6, h7, h8, h9, h10, h11, h12, h13, h14, h15, h16, h17, h18,
    h19, Option.bind_eq_bind, Option.bind_some]

/-! ### What the compiler reads -/

/-- The name and the initializer of a member. -/
def initializer (line : List Char) : Option (String × List Char) :=
  match strtok [' ', ','] line with
  | ['.' :: key, ['='], text, ['\\']] => some (String.ofList key, text)
  | _ => none

/-- A member without an initializer is zero. -/
def memberValue (fields : List (String × List Char)) (key : String) : Option ℚ :=
  match fields.lookup key with
  | none => some 0
  | some text => literal text

/-- `BASE101_CALIBRATION_PARAMETERS`. -/
def compiledParameters (text : List Char) : Option (CalibrationParameters ℚ) :=
  ofNames (memberValue ((strtok ['\n'] text).filterMap initializer))

/-! ### What is accepted -/

/-- With each key once, a lookup finds the entry. -/
theorem lookup_of_mem {α : Type} {items : List (String × α)}
    (hnodup : (items.map Prod.fst).Nodup) {key : String} {value : α}
    (h : (key, value) ∈ items) : items.lookup key = some value := by
  obtain ⟨before, after, rfl⟩ := List.append_of_mem h
  refine List.lookup_eq_some_iff.mpr ⟨before, after, rfl, ?_⟩
  intro entry hentry
  rw [List.map_append, List.map_cons, List.nodup_append] at hnodup
  have hne := hnodup.2.2 entry.1 (List.mem_map_of_mem hentry) key List.mem_cons_self
  simpa using hne.symm

theorem Dict.mem_of_keys {d : Dict} {key : String} (h : key ∈ d.keys) :
    ∃ value, (key, value) ∈ d.items := by
  obtain ⟨⟨_, value⟩, hmem, rfl⟩ := List.mem_map.mp h
  exact ⟨value, hmem⟩

theorem checkNumber_ok {name : String} {low high v : ℚ} :
    checkNumber name low high v = .ok () ↔
      (low ≤ v ∧ v ≤ high) ∧ (name ∈ integerParameters → v = (Double.toInt v : ℚ)) := by
  rw [checkNumber]
  by_cases hrange : low ≤ v ∧ v ≤ high
  · rw [if_neg (not_not.mpr hrange)]
    by_cases hint : name ∈ integerParameters ∧ v ≠ (Double.toInt v : ℚ)
    · rw [if_pos hint]
      simp [hint.1, hint.2]
    · rw [if_neg hint]
      simp only [hrange, true_and, true_iff]
      intro hname
      by_contra hv
      exact hint ⟨hname, hv⟩
  · rw [if_pos hrange]
    simp [hrange]

/-- The value passes the checks of its name. -/
def Accepted (x : String × ℚ) : Prop :=
  ∃ low high, limits.lookup x.1 = some (low, high) ∧ checkNumber x.1 low high x.2 = .ok ()

theorem checkParameter_ok {name : String} {value : JsonValue}
    (h : checkParameter (name, value) = .ok ()) :
    ∃ v, value.number = some v ∧ Accepted (name, v) := by
  rw [checkParameter] at h
  split at h
  · cases h
  next low high hlookup =>
    cases value with
    | bool b => cases h
    | nonfinite => cases h
    | other => cases h
    | int n =>
      dsimp only at h
      split at h
      · cases h
      · exact ⟨n, rfl, low, high, hlookup, h⟩
    | float v => exact ⟨v, rfl, low, high, hlookup, h⟩

theorem checkParameters_ok {items : List (String × JsonValue)} :
    checkParameters items = .ok () ↔ ∀ item ∈ items, checkParameter item = .ok () := by
  induction items with
  | nil => simp [checkParameters]
  | cons item items ih =>
    rw [checkParameters, List.forall_mem_cons, ← ih]
    cases checkParameter item with
    | error e => simp [bind, Except.bind]
    | ok u => simp [bind, Except.bind]

theorem validateParameters_ok {d d' : Dict} :
    validateParameters (some d) = .ok d' ↔
      d = d' ∧ (d.SameKeys limits ∨ d.SameKeys basicLimits) ∧
        ∀ item ∈ d.items, checkParameter item = .ok () := by
  rw [validateParameters, ← checkParameters_ok]
  by_cases hkeys : d.SameKeys limits ∨ d.SameKeys basicLimits
  · rw [if_neg (not_not.mpr hkeys)]
    cases checkParameters d.items with
    | error e => simp [bind, Except.bind]
    | ok u => simp [bind, Except.bind, hkeys]
  · rw [if_pos hkeys]
    simp [hkeys]

/-- At most six decimal places. -/
def SixPlaces (v : ℚ) : Prop := (⌊v * 10 ^ 6⌋ : ℚ) = v * 10 ^ 6

def Dict.SixPlaces (d : Dict) : Prop :=
  ∀ item ∈ d.items, ∀ v ∈ item.2.number, CalibrationServer.SixPlaces v

/-- Every range lies between 0 and 255. -/
theorem limits_bounds : ∀ row ∈ limits, 0 ≤ row.2.1 ∧ row.2.2 ≤ 255 := by decide +kernel

theorem Accepted.bounds {x : String × ℚ} (h : Accepted x) : 0 ≤ x.2 ∧ x.2 ≤ 255 := by
  obtain ⟨low, high, hlookup, hcheck⟩ := h
  obtain ⟨before, after, hsplit, -⟩ := List.lookup_eq_some_iff.mp hlookup
  have hrow := limits_bounds (x.1, low, high) (by rw [hsplit]; simp)
  obtain ⟨⟨hlow, hhigh⟩, -⟩ := checkNumber_ok.mp hcheck
  exact ⟨hrow.1.trans hlow, hhigh.trans hrow.2⟩

/-- An accepted value with six places, in millionths. -/
theorem Accepted.millionths {x : String × ℚ} (h : Accepted x) (hplaces : SixPlaces x.2) :
    ∃ n : ℕ, n ≤ 255000000 ∧ x.2 = (n : ℚ) / 10 ^ 6 := by
  obtain ⟨hlow, hhigh⟩ := h.bounds
  rw [SixPlaces] at hplaces
  have hnonneg : 0 ≤ ⌊x.2 * 10 ^ 6⌋ := Int.floor_nonneg.mpr (by positivity)
  obtain ⟨n, hn⟩ := Int.eq_ofNat_of_zero_le hnonneg
  rw [hn] at hplaces
  have hscaled : (n : ℚ) = x.2 * 10 ^ 6 := by exact_mod_cast hplaces
  refine ⟨n, ?_, ?_⟩
  · have hbound : (n : ℚ) ≤ 255000000 := by
      rw [hscaled]
      linarith
    exact_mod_cast hbound
  · rw [hscaled]
    field_simp

theorem Accepted.significant {x : String × ℚ} (h : Accepted x) (hplaces : SixPlaces x.2) :
    Significant 9 x.2 := by
  obtain ⟨n, hn, hx⟩ := h.millionths hplaces
  rw [hx]
  exact significant_div (by omega) 6

/-- An accepted complete dictionary holds one set of parameters, each in its range. -/
theorem accepted_parameters {d : Dict} (h : validateParameters (some d) = .ok d)
    (hcomplete : d.SameKeys limits) (hplaces : d.SixPlaces) :
    ∃ p, ∀ x ∈ named p, d.number x.1 = some x.2 ∧ Accepted x ∧ SixPlaces x.2 := by
  obtain ⟨-, -, hitems⟩ := validateParameters_ok.mp h
  have hvalue : ∀ key ∈ limits.map Prod.fst,
      ∃ v, d.number key = some v ∧ Accepted (key, v) ∧ SixPlaces v := by
    intro key hkey
    obtain ⟨value, hmem⟩ := Dict.mem_of_keys (hcomplete.2 hkey)
    obtain ⟨v, hnumber, haccepted⟩ := checkParameter_ok (hitems _ hmem)
    refine ⟨v, ?_, haccepted, hplaces _ hmem v hnumber⟩
    rw [Dict.number, lookup_of_mem d.nodup hmem]
    exact hnumber
  -- the value of each name, and the record that holds them
  let f (key : String) : ℚ := (d.number key).getD 0
  refine ⟨{ ax := f "ax", jx := f "jx", aw := f "aw", jw := f "jw", kIcr := f "k_icr"
            radius := f "radius", separation := f "separation", ramp := f "ramp"
            rpmMax := f "rpm_max", vxMax := f "vx_max", wzMax := f "wz_max", lpf := f "lpf"
            kp := f "kp", ki := f "ki", correctionMax := f "correction_max"
            deadband := f "deadband", correctionAccel := f "correction_accel"
            correctionJerk := f "correction_jerk", yawFeedback := f "yaw_feedback" }, ?_⟩
  intro x hx
  have hnamed : x ∈ (limits.map Prod.fst).map fun key => (key, f key) := hx
  obtain ⟨key, hkey, rfl⟩ := List.mem_map.mp hnamed
  obtain ⟨v, hnumber, haccepted, hsix⟩ := hvalue key hkey
  have hf : f key = v := by
    show (d.number key).getD 0 = v
    rw [hnumber]
    rfl
  rw [hf]
  exact ⟨hnumber, haccepted, hsix⟩

/-! ### What is printed -/

theorem mapM_some {α β : Type} {f : α → Option β} {g : α → β} {l : List α}
    (h : ∀ a ∈ l, f a = some (g a)) : l.mapM f = some (l.map g) := by
  induction l with
  | nil => rfl
  | cons a l ih =>
    rw [List.forall_mem_cons] at h
    rw [List.mapM_cons, h.1, ih h.2]
    rfl

/-- The words of a complete configuration. -/
def words (p : CalibrationParameters ℚ) : List (List Char) :=
  (named p).map fun x => formatG 9 x.2

theorem printed_limits {d : Dict} {p : CalibrationParameters ℚ}
    (h : ∀ x ∈ named p, d.number x.1 = some x.2) : printed d limits = some (words p) := by
  have hkeys : printed d limits =
      ((named p).map Prod.fst).mapM fun key => (d.number key).map (formatG 9) := by
    rw [printed, named_keys, List.mapM_map]
    rfl
  rw [hkeys, List.mapM_map, words]
  refine mapM_some ?_
  intro x hx
  simp only [Function.comp_apply, h x hx, Option.map_some]

/-! ### What was saved -/

/-- A name is made of small letters and underscores. -/
theorem limits_chars : ((limits.map Prod.fst).all fun key =>
    key.toList.all fun c => c.isLower || c = '_') = true := by decide +kernel

/-- So it holds no separator of the header or of a line. -/
theorem key_not_mem {key : String} (hkey : key ∈ limits.map Prod.fst) {c : Char}
    (hc : c ∈ key.toList) : c ∉ [' ', '\t', ',', '\n'] := by
  have hchar := List.all_eq_true.mp (List.all_eq_true.mp limits_chars key hkey) c hc
  intro hmem
  simp only [List.mem_cons, List.not_mem_nil, or_false] at hmem
  rcases hmem with rfl | rfl | rfl | rfl <;> cases hchar

/-- The compiler reads a line of the initializer. -/
theorem initializer_headerField {key : String} {text : List Char}
    (hkey : ∀ c ∈ key.toList, c ∉ [' ', '\t', ',', '\n']) (htext : Numeral text)
    (hne : text ≠ []) : initializer (headerField key text) = some (key, text) := by
  have hspace : ' ' ∈ [' ', ','] := by simp
  have hcomma : ',' ∈ [' ', ','] := by simp
  have hsub {c : Char} (h : c ∉ [' ', '\t', ',', '\n']) : c ∉ [' ', ','] := by
    simp only [List.mem_cons, List.not_mem_nil, or_false, not_or] at h ⊢
    exact ⟨h.1, h.2.2.1⟩
  have hname : ∀ c ∈ '.' :: key.toList, c ∉ [' ', ','] := by
    rw [List.forall_mem_cons]
    exact ⟨by simp, fun c hc => hsub (hkey c hc)⟩
  have hvalue : ∀ c ∈ text, c ∉ [' ', ','] := fun c hc => hsub (htext.not_mem hc)
  have hline : headerField key text = ' ' :: ' ' :: ' ' :: ' ' :: (('.' :: key.toList) ++
      ' ' :: (['='] ++ ' ' :: (text ++ ',' :: ' ' :: ['\\']))) := by
    simp [headerField]
  have htokens : strtok [' ', ','] (headerField key text) =
      ['.' :: key.toList, ['='], text, ['\\']] := by
    rw [hline]
    rw [strtok_delim hspace, strtok_delim hspace, strtok_delim hspace, strtok_delim hspace]
    rw [strtok_word hspace (List.cons_ne_nil _ _) hname]
    rw [strtok_word hspace (List.cons_ne_nil _ _) (by simp)]
    rw [strtok_word hcomma hne hvalue, strtok_delim hspace]
    rw [strtok_last (List.cons_ne_nil _ _) (by simp)]
  rw [initializer, htokens]
  simp

/-- A line of the initializer holds no newline. -/
theorem newline_headerField {key : String} {text : List Char}
    (hkey : ∀ c ∈ key.toList, c ∉ [' ', '\t', ',', '\n']) (htext : Numeral text) :
    '\n' ∉ headerField key text := by
  have hkey' : '\n' ∉ key.toList := fun h => hkey _ h (by simp)
  have htext' : '\n' ∉ text := fun h => htext.not_mem h (by simp)
  simp [headerField, hkey', htext']

/-- The initializers of a header are those of its fields. -/
theorem initializers_headerText {p : CalibrationParameters ℚ} (word : ℚ → List Char)
    (hwords : ∀ x ∈ named p, Numeral (word x.2) ∧ word x.2 ≠ []) :
    (strtok ['\n'] (headerText ((named p).map fun x => word x.2))).filterMap initializer =
      (named p).map fun x => (x.1, word x.2) := by
  have hfields : List.zipWith headerField (limits.map Prod.fst)
      ((named p).map fun x => word x.2) =
      (named p).map fun x => headerField x.1 (word x.2) := by
    rw [← named_keys p, List.zipWith_map, List.zipWith_self]
  have hkeys : ∀ x ∈ named p, ∀ c ∈ x.1.toList, c ∉ [' ', '\t', ',', '\n'] := by
    intro x hx c hc
    refine key_not_mem ?_ hc
    rw [← named_keys p]
    exact List.mem_map_of_mem hx
  -- no line holds a newline of its own
  have hlines : ∀ line ∈ headerFirst ++ ((named p).map fun x => headerField x.1 (word x.2)) ++
      headerLast, ∀ c ∈ line, c ∉ ['\n'] := by
    intro line hline c hc hmem
    obtain rfl : c = '\n' := List.mem_singleton.mp hmem
    rcases List.mem_append.mp hline with hline | hline
    · rcases List.mem_append.mp hline with hline | hline
      · have hfirst : ∀ line ∈ headerFirst, '\n' ∉ line := by decide +kernel
        exact hfirst line hline hc
      · obtain ⟨x, hx, rfl⟩ := List.mem_map.mp hline
        exact newline_headerField (hkeys x hx) (hwords x hx).1 hc
    · have hlast : ∀ line ∈ headerLast, '\n' ∉ line := by decide +kernel
      exact hlast line hline hc
  have hfirst : (headerFirst.filter (· ≠ [])).filterMap initializer = [] := by decide +kernel
  have hlast : (headerLast.filter (· ≠ [])).filterMap initializer = [] := by decide +kernel
  have hmiddle : ∀ line ∈ (named p).map fun x => headerField x.1 (word x.2), line ≠ [] := by
    intro line hline
    obtain ⟨x, -, rfl⟩ := List.mem_map.mp hline
    simp [headerField]
  rw [headerText, hfields, strtok_intercalate (List.mem_singleton_self _) hlines]
  rw [List.filter_append, List.filter_append, List.filterMap_append, List.filterMap_append]
  rw [hfirst, hlast, List.filter_eq_self.mpr (by simpa using hmiddle)]
  rw [List.nil_append, List.append_nil, List.filterMap_map]
  rw [← List.filterMap_eq_map]
  refine List.filterMap_congr ?_
  intro x hx
  exact initializer_headerField (hkeys x hx) (hwords x hx).1 (hwords x hx).2

/-- The compiler reads the parameters that were printed. -/
theorem compiled_header {p : CalibrationParameters ℚ}
    (h : ∀ x ∈ named p, Accepted x ∧ SixPlaces x.2) :
    compiledParameters (headerText (words p)) = some p := by
  have hsignificant (x : String × ℚ) (hx : x ∈ named p) : Significant 9 x.2 ∧ 0 ≤ x.2 :=
    ⟨(h x hx).1.significant (h x hx).2, (h x hx).1.bounds.1⟩
  have hfields : (strtok ['\n'] (headerText (words p))).filterMap initializer =
      (named p).map fun x => (x.1, formatG 9 x.2) := by
    refine initializers_headerText (formatG 9) ?_
    intro x hx
    obtain ⟨hsig, hnonneg⟩ := hsignificant x hx
    exact ⟨hsig.numeral_formatG hnonneg, hsig.formatG_ne_nil hnonneg⟩
  rw [compiledParameters, hfields]
  refine ofNames_eq ?_
  intro x hx
  obtain ⟨hsig, hnonneg⟩ := hsignificant x hx
  have hlookup : ((named p).map fun x => (x.1, formatG 9 x.2)).lookup x.1 =
      some (formatG 9 x.2) := by
    refine lookup_of_mem ?_ (List.mem_map_of_mem hx)
    rw [List.map_map]
    exact limits_nodup
  rw [memberValue, hlookup]
  exact literal_formatG hsig hnonneg

/-! ### What is reported -/

/-- A number printed with `%.6f` is decoded as a `float`. -/
theorem jsonNumber_formatF (n : ℕ) :
    jsonNumber (formatF 6 ((n : ℚ) / 10 ^ 6)) = .float ((n : ℚ) / 10 ^ 6) := by
  obtain ⟨fraction, -, -, -, hformat⟩ := formatF_natCast_div 6 (by omega) n
  have hread := strtod_formatF (F := ℚ) 6 (by omega) n
  have hpoint : ((formatF 6 ((n : ℚ) / 10 ^ 6)).all fun c => c.isDigit || c = '-') = false := by
    rw [hformat, List.all_eq_false]
    exact ⟨'.', by simp, by decide⟩
  rw [jsonNumber, hread]
  simp only [hpoint]
  simp

section Reported

variable {p : CalibrationParameters ℚ} (h : ∀ x ∈ named p, Accepted x ∧ SixPlaces x.2)
include h

/-- The entries of a decoded reply. -/
theorem reported_items : (reported p).items = (named p).map fun x => (x.1, .float x.2) := by
  refine List.map_congr_left ?_
  intro x hx
  obtain ⟨n, -, hn⟩ := (h x hx).1.millionths (h x hx).2
  rw [hn, jsonNumber_formatF]

/-- The reply decodes to the parameters it printed. -/
theorem reported_parameters : (reported p).parameters = some p := by
  refine ofNames_eq ?_
  intro x hx
  have hmem : (x.1, JsonValue.float x.2) ∈ (reported p).items := by
    rw [reported_items h]
    exact List.mem_map_of_mem hx
  rw [Dict.number, lookup_of_mem (reported p).nodup hmem]
  rfl

/-- They are accepted again. -/
theorem reported_accepted : validateParameters (some (reported p)) = .ok (reported p) := by
  have hkeys : (reported p).keys = limits.map Prod.fst := by
    rw [Dict.keys, reported_items h, List.map_map]
    rfl
  refine validateParameters_ok.mpr ⟨rfl, .inl ?_, ?_⟩
  · rw [Dict.SameKeys, hkeys]
    exact ⟨List.Subset.refl _, List.Subset.refl _⟩
  · intro item hitem
    rw [reported_items h] at hitem
    obtain ⟨x, hx, rfl⟩ := List.mem_map.mp hitem
    obtain ⟨low, high, hlookup, hcheck⟩ := (h x hx).1
    rw [checkParameter]
    simp only [hlookup]
    exact hcheck

theorem reported_length : (reported p).items.length = limits.length := by
  rw [reported_items h, List.length_map]
  rfl

theorem printed_reported : printed (reported p) limits = some (words p) := by
  refine printed_limits ?_
  intro x hx
  have hmem : (x.1, JsonValue.float x.2) ∈ (reported p).items := by
    rw [reported_items h]
    exact List.mem_map_of_mem hx
  rw [Dict.number, lookup_of_mem (reported p).nodup hmem]
  rfl

theorem calibrationHeader_reported :
    calibrationHeader (reported p) = .ok (some (headerText (words p))) := by
  rw [calibrationHeader, reported_accepted h]
  simp only [bind, Except.bind]
  rw [if_neg (not_not.mpr (reported_length h)), printed_reported h]
  rfl

end Reported

/-- Nothing moves or is saved, and fresh feedback confirms the brakes. -/
structure LinkView.Savable (link : LinkView) (current : Telemetry) (now : ℚ) : Prop where
  latest : link.latest = some current
  idle : (link.saving || link.armed || link.trial || link.sequence) = false
  still : current.atRest = true ∧ current.motionEnabled = false
  fresh : ∃ t, link.received = some t ∧ now - t ≤ telemetryTimeoutS
  brakes : current.brakeOkMask = some 15

/-- Reported parameters are saved as they are. -/
theorem saveSettings_reported {p : CalibrationParameters ℚ}
    (h : ∀ x ∈ named p, Accepted x ∧ SixPlaces x.2) {link : LinkView} {current : Telemetry}
    {now : ℚ} (hlink : link.Savable current now)
    (hcurrent : current.parameters = some (reported p)) :
    saveSettings link now = .ok (reported p, some (headerText (words p))) := by
  obtain ⟨t, hreceived, hfresh⟩ := hlink.fresh
  have hfeedback : ¬((∀ t ∈ link.received, telemetryTimeoutS < now - t) ∨
      current.brakeOkMask ≠ some 15) := by
    rw [hreceived, hlink.brakes]
    simpa using hfresh
  have hstopped : (link.saving || link.armed || link.trial || link.sequence || !current.atRest ||
      current.motionEnabled) = false := by
    rw [hlink.idle, hlink.still.1, hlink.still.2]
    rfl
  rw [saveSettings, hlink.latest]
  simp only [hstopped, if_neg hfeedback, hcurrent, reported_accepted h]
  simp only [bind, Except.bind, Bool.false_eq_true, if_false]
  rw [if_neg (not_not.mpr (reported_length h)), calibrationHeader_reported h]

/-- A complete dictionary has nineteen entries. -/
theorem length_of_complete {d : Dict} (h : d.SameKeys limits) : d.items.length = 19 := by
  have hperm : d.keys.Perm (limits.map Prod.fst) :=
    (List.perm_ext_iff_of_nodup d.nodup limits_nodup).mpr fun key =>
      ⟨fun hkey => h.1 hkey, fun hkey => h.2 hkey⟩
  have hlength := hperm.length_eq
  rw [Dict.keys, List.length_map] at hlength
  exact hlength

/-- No trial holds the parameters, and the firmware knows `config`. -/
structure LinkView.Configurable (link : LinkView) : Prop where
  idle : (link.trial || link.sequence || link.saving) = false
  firmware : ∃ current, link.latest = some current ∧ "full_config" ∈ current.features

/-- An accepted complete dictionary is sent as one `config` line. -/
theorem postParameters_complete {d : Dict} {p : CalibrationParameters ℚ}
    (haccepted : validateParameters (some d) = .ok d) (hcomplete : d.SameKeys limits)
    (hvalues : ∀ x ∈ named p, d.number x.1 = some x.2) {link : LinkView}
    (hlink : link.Configurable) :
    postParameters link (some d) =
      .ok (some ("config ".toList ++ [' '].intercalate (words p))) := by
  obtain ⟨current, hlatest, hfeature⟩ := hlink.firmware
  have hlength := length_of_complete hcomplete
  have hfirmware : ¬(5 < d.items.length ∧
      ∀ current ∈ link.latest, "full_config" ∉ current.features) := by
    rintro ⟨-, hnone⟩
    exact hnone current hlatest hfeature
  have hcommand : parameterCommand d =
      some ("config ".toList ++ [' '].intercalate (words p)) := by
    rw [parameterCommand, if_neg (by omega), printed_limits hvalues]
    rfl
  rw [postParameters, haccepted]
  simp only [bind, Except.bind, hlink.idle, Bool.false_eq_true, if_false]
  rw [if_neg hfirmware, hcommand]

end CalibrationServer
