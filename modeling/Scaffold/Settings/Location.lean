import Scaffold.Path.Basic
import Scaffold.Settings.Environment

/-!
# Where settings are kept

The settings of a user lie below the directory for settings, which the environment names, or else in
the usual place below the home directory.
-/

namespace Scaffold.Settings

/-- The home directory, which is that of the account where the environment names none. -/
def home (env : Environment) (accountHome : Path) : Path :=
  match env.lookup "HOME" with
  | none | some "" => accountHome
  | some text => ⟨text⟩

/-- The directory for the settings of all programs. Only an absolute path is taken from the
environment. -/
def directory (env : Environment) (accountHome : Path) : Path :=
  match (env.lookup "XDG_CONFIG_HOME").map Path.mk with
  | some p => if p.isAbsolute then p else (home env accountHome).join ⟨".config"⟩
  | none => (home env accountHome).join ⟨".config"⟩

/-- The path of the file with the settings of a user. -/
def location (env : Environment) (accountHome : Path) : Path :=
  ((directory env accountHome).join ⟨"crudgen"⟩).join ⟨"config.toml"⟩

end Scaffold.Settings
