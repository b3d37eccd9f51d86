import TagStore.Program.Run

/-!
# The command line client

Reads the arguments and the environment, runs the program, and prints what it leaves behind. No
network is at hand here, so every attempt to connect fails.
-/

namespace TagStore.Program

/-- The names of the variables of the environment that hold settings. -/
def settingNames : List String :=
  ["OKUYAMA_ENDPOINTS", "OKUYAMA_POOL_SIZE", "OKUYAMA_CONNECT_TIMEOUT_MS",
   "OKUYAMA_READ_TIMEOUT_MS", "OKUYAMA_CONNECTION_TTL_SECS", "OKUYAMA_RECHECK_INTERVAL_MS",
   "OKUYAMA_SETTLE_DELAY_MS", "OKUYAMA_PROBE_TIMEOUT_MS", "OKUYAMA_BASE64_KEYS",
   "OKUYAMA_SERIALIZE_STRINGS", "OKUYAMA_COMPRESSION", "OKUYAMA_COMPRESSION_MIN_LENGTH",
   "OKUYAMA_COMPRESSOR", "OKUYAMA_DUMP_STREAM"]

end TagStore.Program

open TagStore TagStore.Program in
/-- Runs the program. -/
def main (args : List String) : IO UInt32 := do
  let values ← settingNames.mapM fun name => do
    return (name, ← IO.getEnv name)
  let env : Environment := fun name => (values.find? (·.1 == name)).bind (·.2)
  let (outcome, _) := Program.run Network.unreachable args env ()
  IO.print outcome.stdout
  IO.eprint outcome.stderr
  return UInt32.ofNat outcome.status
