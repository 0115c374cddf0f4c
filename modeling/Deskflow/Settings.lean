import Deskflow.Value.Reading

/-!
# Settings

How the desk is set up, and which settings are refused.

Models `Config` with its check and its reading (`from_env`).

* `check_eq_ok`: the settings that are accepted.
* `check_default`: the defaults are.
-/

namespace Deskflow

/-- How the desk is set up. -/
structure Settings where
  storageRoot : String := "storage/app/public"
  publicPrefix : String := "/storage"
  tagWindow : Int := 30
  webhookPath : String := "/webhook"
  webhookUrl : String := ""
  webhookSecret : String := ""
  adminToken : String := ""
  logLevel : String := "INFO"
deriving DecidableEq, Repr

namespace Settings

/-- The capital form of a character of a log level: that of an ASCII letter, and an `I` for a
dotless i. No other character has a capital form that a log level is made of. -/
def capital (c : Char) : Char := if c = 'ı' then 'I' else c.toUpper

/-- The capital form of a log level. -/
def capitals (s : String) : String := String.ofList (s.toList.map capital)

/-- The log levels. -/
def logLevels : List String := ["DEBUG", "INFO", "WARNING", "ERROR", "CRITICAL"]

/-- Whether a text starts with a slash. -/
def isAbsolute (s : String) : Bool := s.toList.head? == some '/'

/-- The first reason to refuse settings, if there is one. -/
def refusal? (s : Settings) : Option SettingFault :=
  if s.tagWindow < 0 then some .negativeWindow
  else if !isAbsolute s.publicPrefix then some .storagePrefix
  else if !isAbsolute s.webhookPath then some .webhookPath
  else if !logLevels.contains (capitals s.logLevel) then some .logLevel
  else none

/-- The settings, unless they are refused. -/
def check (s : Settings) : Except Fault Settings :=
  match s.refusal? with
  | some fault => .error (.setting fault)
  | none => .ok s

/-- Whether the desk is reached from outside (`is_production`). -/
def isProduction (s : Settings) : Bool := s.webhookUrl != ""

/-- The names of the settings. -/
def names : List String :=
  ["storage_root", "public_storage_prefix", "tag_trigger_dedup_seconds", "webhook_path",
    "webhook_url", "webhook_secret", "admin_api_token", "log_level"]

/-- The settings that fields make; a setting that is left out has its default. -/
def ofRecord (r : Record) : Except Fault Settings :=
  match r.find? fun f => !names.contains f.1 with
  | some f => .error (.unknownSetting f.1)
  | none =>
    let defaults : Settings := {}
    let text (name default : String) : String := ((r.getD name).text?).getD default
    check
      { storageRoot := text "storage_root" defaults.storageRoot
        publicPrefix := text "public_storage_prefix" defaults.publicPrefix
        tagWindow := match (r.getD "tag_trigger_dedup_seconds").key with
          | .int n => n
          | _ => defaults.tagWindow
        webhookPath := text "webhook_path" defaults.webhookPath
        webhookUrl := text "webhook_url" defaults.webhookUrl
        webhookSecret := text "webhook_secret" defaults.webhookSecret
        adminToken := text "admin_api_token" defaults.adminToken
        logLevel := text "log_level" defaults.logLevel }

/-- The settings that environment variables make, given the value of each variable that is set
(`from_env`). -/
def ofEnvironment (value? : String → Option String) : Except Fault Settings := do
  if (value? "DATABASE_URL").getD "" = "" then throw .databaseNotConfigured
  let defaults : Settings := {}
  let tagWindow ← Numeral.read ((value? "TAG_TRIGGER_DEDUP_SECONDS").getD "30")
  check
    { storageRoot := (value? "STORAGE_ROOT").getD defaults.storageRoot
      publicPrefix := (value? "PUBLIC_STORAGE_PREFIX").getD defaults.publicPrefix
      tagWindow
      webhookPath := (value? "WEBHOOK_PATH").getD defaults.webhookPath
      webhookUrl := (value? "WEBHOOK_URL").getD ""
      webhookSecret := (value? "WEBHOOK_SECRET").getD ""
      adminToken := (value? "ADMIN_API_TOKEN").getD ""
      logLevel := capitals ((value? "LOG_LEVEL").getD defaults.logLevel) }

/-! ## Lemmas -/

theorem check_eq_ok {s t : Settings} :
    check s = .ok t ↔ t = s ∧ 0 ≤ s.tagWindow ∧ isAbsolute s.publicPrefix = true
      ∧ isAbsolute s.webhookPath = true ∧ capitals s.logLevel ∈ logLevels := by
  unfold check refusal?
  by_cases h₁ : s.tagWindow < 0
  · simp [h₁, Int.not_le.2 h₁]
  · by_cases h₂ : isAbsolute s.publicPrefix = true
    · by_cases h₃ : isAbsolute s.webhookPath = true
      · by_cases h₄ : capitals s.logLevel ∈ logLevels
        · simp [h₁, h₂, h₃, h₄, Int.not_lt.1 h₁, eq_comm]
        · simp [h₁, h₂, h₃, h₄]
      · simp [h₁, h₂, h₃]
    · simp [h₁, h₂]

theorem check_default : check {} = .ok {} :=
  check_eq_ok.2 ⟨rfl, by decide, by decide +kernel, by decide +kernel, by decide +kernel⟩

end Settings

end Deskflow
