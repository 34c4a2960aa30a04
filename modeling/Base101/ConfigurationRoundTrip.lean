/-
A configuration on its way: browser, firmware, header and the next boot.

The nineteen values are printed for the `config` line, read by the firmware, printed
again for the reply, decoded, printed for `calibration.h` and compiled into the node.

* `configuration_round_trip` — the values that were asked for are in force at boot.
-/
import Base101.CalibrationServer
import Base101.FirmwareParameters

open Double CString CalibrationServer

/-! ### The ranges agree -/

/-- What the server accepts is documented for the firmware. -/
theorem documented_of_accepted {p : CalibrationParameters ℚ}
    (h : ∀ x ∈ named p, Accepted x) : p.Documented := by
  have check (name : String) {v low high : ℚ} (hmem : (name, v) ∈ named p)
      (hlookup : limits.lookup name = some (low, high)) :
      (low ≤ v ∧ v ≤ high) ∧ (name ∈ integerParameters → v = (Double.toInt v : ℚ)) := by
    obtain ⟨low', high', hlookup', hcheck⟩ := h _ hmem
    rw [hlookup] at hlookup'
    obtain ⟨rfl, rfl⟩ := Prod.mk.inj (Option.some.inj hlookup')
    exact checkNumber_ok.mp hcheck
  have range (name : String) {v low high : ℚ} (hmem : (name, v) ∈ named p)
      (hlookup : limits.lookup name = some (low, high)) : InRange low high v :=
    inRange_exact.mpr (check name hmem hlookup).1
  have integral (name : String) {v low high : ℚ} (hmem : (name, v) ∈ named p)
      (hlookup : limits.lookup name = some (low, high)) (hname : name ∈ integerParameters) :
      (⌊v⌋ : ℚ) = v := by
    rw [(check name hmem hlookup).2 hname, Int.floor_intCast]
  exact
    { ax := range "ax" (by simp [named]) rfl
      jx := range "jx" (by simp [named]) rfl
      aw := range "aw" (by simp [named]) rfl
      jw := range "jw" (by simp [named]) rfl
      kIcr := range "k_icr" (by simp [named]) rfl
      radius := range "radius" (by simp [named]) rfl
      separation := range "separation" (by simp [named]) rfl
      ramp := range "ramp" (by simp [named]) rfl
      rpmMax := range "rpm_max" (by simp [named]) rfl
      vxMax := range "vx_max" (by simp [named]) rfl
      wzMax := range "wz_max" (by simp [named]) rfl
      lpf := range "lpf" (by simp [named]) rfl
      kp := range "kp" (by simp [named]) rfl
      ki := range "ki" (by simp [named]) rfl
      correctionMax := range "correction_max" (by simp [named]) rfl
      deadband := range "deadband" (by simp [named]) rfl
      correctionAccel := range "correction_accel" (by simp [named]) rfl
      correctionJerk := range "correction_jerk" (by simp [named]) rfl
      yawFeedback := range "yaw_feedback" (by simp [named]) rfl
      rampIntegral := integral "ramp" (by simp [named]) rfl (by decide)
      rpmMaxIntegral := integral "rpm_max" (by simp [named]) rfl (by decide)
      yawFeedbackIntegral := integral "yaw_feedback" (by simp [named]) rfl (by decide) }

/-! ### The line -/

/-- A printed value is read back, within its range. -/
theorem value_formatG {low high v : ℚ} (hsignificant : Significant 9 v) (hv : 0 ≤ v)
    (hrange : InRange low high v) : value (String.ofList (formatG 9 v)) low high = some v := by
  obtain ⟨hfinite, hlow, hhigh⟩ := hrange
  rw [value, String.toList_ofList, strtod_formatG hsignificant hv]
  simp [hlow, hhigh]

section Line

variable {p : CalibrationParameters ℚ} (h : ∀ x ∈ named p, Accepted x ∧ SixPlaces x.2)

/-- A `config` line is its id, its verb and the printed values, joined by blanks. -/
theorem outgoing_config (id : ℕ) :
    outgoing id ("config ".toList ++ [' '].intercalate (words p)) =
      [' '].intercalate (Nat.toDigits 10 id :: "config".toList :: words p) := by
  simp [outgoing, words, named]

include h

theorem words_numeral : ∀ w ∈ words p, Numeral w ∧ w ≠ [] ∧ w.length ≤ 14 := by
  intro w hw
  obtain ⟨x, hx, rfl⟩ := List.mem_map.mp hw
  obtain ⟨haccepted, hplaces⟩ := h x hx
  have hsignificant := haccepted.significant hplaces
  obtain ⟨hlow, hhigh⟩ := haccepted.bounds
  refine ⟨hsignificant.numeral_formatG hlow, hsignificant.formatG_ne_nil hlow, ?_⟩
  refine hsignificant.length_formatG_le hlow ?_ (by omega) (hhigh.trans_lt (by norm_num))
  -- a millionth is not tiny
  obtain ⟨n, -, hn⟩ := haccepted.millionths hplaces
  rcases Nat.eq_zero_or_pos n with rfl | hpos
  · exact .inl (by rw [hn]; simp)
  · right
    have hone : (1 : ℚ) ≤ n := by exact_mod_cast hpos
    rw [hn, le_div_iff₀ (by positivity)]
    calc (10 : ℚ) ^ (-99 : ℤ) * 10 ^ 6 ≤ 1 := by norm_num
      _ ≤ n := hone

/-- The tokens of the line. -/
theorem tokens_config (id : ℕ) :
    tokens (outgoing id ("config ".toList ++ [' '].intercalate (words p))) =
      String.ofList (Nat.toDigits 10 id) :: "config" :: (words p).map String.ofList := by
  have hchars : ∀ w ∈ Nat.toDigits 10 id :: "config".toList :: words p,
      ∀ c ∈ w, c ∉ [' ', '\t'] := by
    have hdigits := numeral_of_digits (digits_toDigits id)
    have hsub {c : Char} (hc : c ∉ [' ', '\t', ',', '\n']) : c ∉ [' ', '\t'] := by
      simp only [List.mem_cons, List.not_mem_nil, or_false, not_or] at hc ⊢
      exact ⟨hc.1, hc.2.1⟩
    rw [List.forall_mem_cons, List.forall_mem_cons]
    refine ⟨fun c hc => hsub (hdigits.not_mem hc), ?_, ?_⟩
    · have hblank : ' ' ∉ "config".toList := by decide
      have htab : '\t' ∉ "config".toList := by decide
      intro c hc hmem
      simp only [List.mem_cons, List.not_mem_nil, or_false] at hmem
      rcases hmem with rfl | rfl
      · exact hblank hc
      · exact htab hc
    · intro w hw c hc
      exact hsub ((words_numeral h w hw).1.not_mem hc)
  have hne : ∀ w ∈ Nat.toDigits 10 id :: "config".toList :: words p, w ≠ [] := by
    rw [List.forall_mem_cons, List.forall_mem_cons]
    exact ⟨Nat.toDigits_ne_nil, by simp, fun w hw => (words_numeral h w hw).2.1⟩
  rw [tokens, outgoing_config, strtok_intercalate (by simp) hchars]
  rw [List.filter_eq_self.mpr (by simpa using hne)]
  simp

/-- The line fits the firmware's buffer. -/
theorem length_config {id : ℕ} (hid : id ≤ 2147483647) :
    (outgoing id ("config ".toList ++ [' '].intercalate (words p))).length + 1 ≤
      lineCapacity := by
  have hdigits : (Nat.toDigits 10 id).length ≤ 10 :=
    (Nat.length_toDigits_le_iff (by norm_num) (by norm_num)).mpr (by omega)
  have hjoined : ∀ ws : List (List Char), (∀ w ∈ ws, w.length ≤ 14) →
      ([' '].intercalate ws).length ≤ 15 * ws.length := by
    intro ws hws
    induction ws with
    | nil => simp
    | cons w ws ih =>
      rw [List.forall_mem_cons] at hws
      have ih := ih hws.2
      have hw := hws.1
      rcases ws with _ | ⟨v, ws⟩
      · simp only [List.intercalate_singleton, List.length_cons, List.length_nil]
        omega
      · simp only [List.intercalate_cons_cons, List.length_append, List.length_cons,
          List.length_nil] at ih ⊢
        omega
  have hwords := hjoined (words p) fun w hw => (words_numeral h w hw).2.2
  have hcount : (words p).length = 19 := rfl
  have hverb : "config ".toList.length = 7 := by decide
  rw [outgoing, List.length_append, List.length_cons, List.length_append, hverb, lineCapacity]
  omega

/-! ### What the firmware reads -/

/-- The firmware reads the values in the order they were printed. -/
theorem configParameters_words :
    configParameters ((words p).map String.ofList) = some p := by
  have hdocumented : p.Documented := documented_of_accepted fun x hx => (h x hx).1
  have hread : ∀ x ∈ named p, ∀ low high, InRange low high x.2 →
      value (String.ofList (formatG 9 x.2)) low high = some x.2 := by
    intro x hx low high hrange
    obtain ⟨haccepted, hplaces⟩ := h x hx
    exact value_formatG (haccepted.significant hplaces) haccepted.bounds.1 hrange
  have hvalues : configValues ((words p).map String.ofList) = some p := by
    simp only [named, List.forall_mem_cons] at hread
    obtain ⟨h1, h2, h3, h4, h5, h6, h7, h8, h9, h10, h11, h12, h13, h14, h15, h16, h17, h18,
      h19, -⟩ := hread
    show configValues [_, _, _, _, _, _, _, _, _, _, _, _, _, _, _, _, _, _, _] = some p
    rw [configValues]
    simp only [h1 _ _ hdocumented.ax, h2 _ _ hdocumented.jx, h3 _ _ hdocumented.aw,
      h4 _ _ hdocumented.jw, h5 _ _ hdocumented.kIcr, h6 _ _ hdocumented.radius,
      h7 _ _ hdocumented.separation, h8 _ _ hdocumented.ramp, h9 _ _ hdocumented.rpmMax,
      h10 _ _ hdocumented.vxMax, h11 _ _ hdocumented.wzMax, h12 _ _ hdocumented.lpf,
      h13 _ _ hdocumented.kp, h14 _ _ hdocumented.ki, h15 _ _ hdocumented.correctionMax,
      h16 _ _ hdocumented.deadband, h17 _ _ hdocumented.correctionAccel,
      h18 _ _ hdocumented.correctionJerk, h19 _ _ hdocumented.yawFeedback,
      Option.bind_eq_bind, Option.bind_some]
  rw [configParameters, hvalues]
  simp [hdocumented.rampIntegral, hdocumented.rpmMaxIntegral, hdocumented.yawFeedbackIntegral]

/-- The line asks for them. -/
theorem request_config (id : ℕ) :
    request (arguments (outgoing id ("config ".toList ++ [' '].intercalate (words p)))) =
      .config ((words p).map String.ofList) := by
  rw [arguments, tokens_config h]
  rfl

end Line

/-! ### The firmware -/

/-- A line of at most 24 tokens that starts with an id. -/
theorem wellFormed_of_tokens {line : List Char} {id : ℕ} {rest : List String}
    (hid : id ≤ 2147483647) (htokens : tokens line = String.ofList (Nat.toDigits 10 id) :: rest)
    (hone : 1 ≤ rest.length) (hfits : rest.length ≤ 23) :
    wellFormed line = true ∧ lineId line = id := by
  have harguments : arguments line = String.ofList (Nat.toDigits 10 id) :: rest := by
    rw [arguments, htokens, List.take_of_length_le]
    rw [List.length_cons]
    omega
  have hlineId : lineId line = id := by
    rw [lineId, harguments]
    show strtoul (String.ofList (Nat.toDigits 10 id)).toList = id
    rw [String.toList_ofList, strtoul_toDigits (hid.trans (by decide))]
  have hdigits := isDigit_toDigits id
  refine ⟨?_, hlineId⟩
  rw [wellFormed, validId, harguments, htokens]
  simp [hlineId, hid, hdigits]
  omega

section Command

variable {F : Type} [Double F] {s : CalibrationProtocol F} {now : UInt64}

/-- A session at rest, once the deadlines have been looked at. -/
structure CalibrationProtocol.Settled (s : CalibrationProtocol F) (now : UInt64) : Prop where
  session : (calibrationExpire s now).1.session = true
  atRest : (calibrationExpire s now).1.atRest = true
  driving : (calibrationExpire s now).1.driving = false
  releasing : (calibrationExpire s now).1.releasing = false

/-- A configuration within the ranges is accepted at rest. -/
theorem calibrationCommand_config {line : List Char} {values : List String}
    {p : CalibrationParameters F} (hs : s.Settled now) (hformed : wellFormed line = true)
    (hrequest : request (arguments line) = .config values)
    (hvalues : configParameters values = some p) :
    (calibrationCommand s line now).1.parameters = p ∧
      (calibrationCommand s line now).2.2 =
        .ok (lineId line) (calibrationStatus (calibrationCommand s line now).1 now) := by
  obtain ⟨hsession, hrest, hdriving, hreleasing⟩ := hs
  rw [calibrationCommand]
  generalize calibrationExpire s now = expired at *
  simp [hformed, hrequest, calibrationDispatch, calibrationSession, hvalues, hsession, hrest,
    hdriving, hreleasing, calibrationReply]

end Command

/-! ### The next boot -/

section Boot

variable {K : Type} [Field K] [LinearOrder K] [IsStrictOrderedRing K] [FloorRing K] [Libm K]

/-- Saved parameters pass both checks of the controller and are in force. -/
theorem wheelsBegin_saved (env : Bus) (image : Image) {p : CalibrationParameters K}
    (hp : p.Documented) :
    (beginController (some p) (Wheels.initial : Wheels K)).2 = true ∧
      wheelsGetParameters (wheelsBegin env image (some p) : Wheels K) = p := by
  have hbegin : (beginController (some p) (Wheels.initial : Wheels K)).2 = true := by
    rw [beginController, glideInit_robotConfig]
    simp only [hp.glideInit_eq]
  -- with the saved cut-off in place, nothing is left to reconfigure
  have hinstalled : Installed { (Wheels.initial : Wheels K).gyroConfig with lpfHz := p.lpf }
      (beginController (some p) (Wheels.initial : Wheels K)).1 p := by
    rw [beginController, glideInit_robotConfig]
    simp only [hp.glideInit_eq]
    refine ⟨rfl, rfl, ?_⟩
    rw [configuredGyro, if_neg (by simp)]
  refine ⟨hbegin, ?_⟩
  rw [wheelsBegin]
  simp only [hbegin, Bool.not_true, Bool.false_eq_true, if_false]
  exact hp.installed (hinstalled.same (foldl_beginWheel_same env image wheelIndices _))

end Boot

/-! ### The whole way -/

theorem nextSequence_le (n : ℕ) : nextSequence n ≤ 2147483647 := by
  rw [nextSequence]
  omega

/-- A complete dictionary that the server accepts, with at most six decimal places, is
one set of parameters all the way: on the line and in the firmware, whose limits it
fits; in the decoded reply; in the header that is saved from it and in what the
compiler reads there; and in the wheels of the image that is built with it. -/
theorem configuration_round_trip {d : Dict} (haccepted : validateParameters (some d) = .ok d)
    (hcomplete : d.SameKeys limits) (hplaces : d.SixPlaces) :
    ∃ p command, d.parameters = some p ∧ parameterCommand d = some command ∧
      (∀ link : LinkView, link.Configurable → postParameters link (some d) = .ok (some command)) ∧
      (∀ (n : ℕ) (s : CalibrationProtocol ℚ) (now : UInt64), s.Settled now →
        let line := outgoing (nextSequence n) command
        let out := calibrationCommand s line now
        line.length + 1 ≤ lineCapacity ∧ (tokens line).length ≤ 24 ∧
          request (arguments line) =
            .config ((named p).map fun x => String.ofList (formatG 9 x.2)) ∧
          out.2.2 = .ok (nextSequence n) (calibrationStatus out.1 now) ∧
          (calibrationStatus out.1 now).parameters = p) ∧
      (reported p).parameters = some p ∧
      (∀ link current now, link.Savable current now →
        current.parameters = some (reported p) →
        ∃ text, saveSettings link now = .ok (reported p, some text) ∧
          compiledParameters text = some p) ∧
      ∀ (env : Bus) (image : Image),
        (beginController (some p) (Wheels.initial : Wheels ℚ)).2 = true ∧
          wheelsGetParameters (wheelsBegin env image (some p) : Wheels ℚ) = p := by
  obtain ⟨p, hp⟩ := accepted_parameters haccepted hcomplete hplaces
  have hnumber : ∀ x ∈ named p, d.number x.1 = some x.2 := fun x hx => (hp x hx).1
  have h : ∀ x ∈ named p, Accepted x ∧ SixPlaces x.2 := fun x hx => (hp x hx).2
  have hcommand : parameterCommand d =
      some ("config ".toList ++ [' '].intercalate (words p)) := by
    have hlength := length_of_complete hcomplete
    rw [parameterCommand, if_neg (by omega), printed_limits hnumber]
    rfl
  refine ⟨p, "config ".toList ++ [' '].intercalate (words p), ofNames_eq hnumber, hcommand,
    ?_, ?_, reported_parameters h, ?_, ?_⟩
  · intro link hlink
    exact postParameters_complete haccepted hcomplete hnumber hlink
  · intro n s now hs
    have hid := nextSequence_le n
    have htokens := tokens_config h (nextSequence n)
    have hcount : ((words p).map String.ofList).length = 19 := rfl
    obtain ⟨hformed, hlineId⟩ := wellFormed_of_tokens hid htokens
      (by rw [List.length_cons, hcount]; omega) (by rw [List.length_cons, hcount]; omega)
    obtain ⟨hparameters, hreply⟩ := calibrationCommand_config hs hformed
      (request_config h (nextSequence n)) (configParameters_words h)
    rw [hlineId] at hreply
    refine ⟨length_config h hid, ?_, ?_, hreply, hparameters⟩
    · rw [htokens, List.length_cons, List.length_cons, hcount]
      omega
    · rw [request_config h, words, List.map_map]
      rfl
  · intro link current now hlink hcurrent
    exact ⟨_, saveSettings_reported h hlink hcurrent, compiled_header h⟩
  · intro env image
    exact wheelsBegin_saved env image (documented_of_accepted fun x hx => (h x hx).1)

/-- The settings of the repository's `calibration.h`, as a browser may send them. -/
def savedSettings : Dict where
  items :=
    [("ax", .float 0.7), ("jx", .float 1.6), ("aw", .int 3), ("jw", .int 10),
     ("k_icr", .float 1.5), ("radius", .float 0.0363), ("separation", .float 0.2899),
     ("ramp", .int 1), ("rpm_max", .int 200), ("vx_max", .float 0.4), ("wz_max", .float 0.8),
     ("lpf", .int 80), ("kp", .float 0.5), ("ki", .float 0.3), ("correction_max", .float 0.5),
     ("deadband", .float 0.005), ("correction_accel", .int 2), ("correction_jerk", .float 9.94),
     ("yaw_feedback", .int 1)]
  nodup := by decide

/-- A session at rest. -/
def settledProtocol : CalibrationProtocol ℚ :=
  { calibrationInit trialParameters with session := true, atRest := true }

theorem configuration_round_trip_saved :
    ∃ p command, savedSettings.parameters = some p ∧ p.radius = 363 / 10000 ∧
      parameterCommand savedSettings = some command ∧
      (calibrationCommand settledProtocol (outgoing 1 command) 0).1.parameters = p ∧
      wheelsGetParameters (wheelsBegin (hostBus true "").toBus .ros (some p) : Wheels ℚ) = p := by
  have haccepted : validateParameters (some savedSettings) = .ok savedSettings :=
    validateParameters_ok.mpr ⟨rfl, .inl (by decide +kernel), by decide +kernel⟩
  have hcomplete : savedSettings.SameKeys limits := by decide +kernel
  have hplaces : savedSettings.SixPlaces := by
    unfold Dict.SixPlaces CalibrationServer.SixPlaces
    decide +kernel
  have hsettled : settledProtocol.Settled 0 :=
    ⟨by decide +kernel, by decide +kernel, by decide +kernel, by decide +kernel⟩
  obtain ⟨p, command, hp, hcommand, -, hline, -, -, hboot⟩ :=
    configuration_round_trip haccepted hcomplete hplaces
  have hradius : savedSettings.parameters.map CalibrationParameters.radius =
      some (363 / 10000) := by decide +kernel
  rw [hp] at hradius
  exact ⟨p, command, hp, Option.some.inj hradius, hcommand, (hline 0 _ _ hsettled).2.2.2.2,
    (hboot _ _).2⟩
