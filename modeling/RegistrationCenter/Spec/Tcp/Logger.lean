import RegistrationCenter.Spec.Messages

/-!
# `RegistrationCenter.Spec.Tcp.Logger`: the log on the terminal

`src/tcp/Logger.h` and `src/tcp/Logger.cpp`. The log goes to `std::cout`, like the output of the
command line. The text of the time, `Timestamp::now().toString()`, is a parameter.
-/

set_option autoImplicit false

namespace RegistrationCenter

/-- The bytes of a text in UTF-8. -/
def utf8 (s : String) : Bytes := s.toList.flatMap String.utf8EncodeChar

inductive LogLevel
  | DEBUG
  | INFO
  | WARN
  | ERROR
  | FATAL

namespace Logger

def LogLevelName : LogLevel → Bytes
  | .DEBUG => bytes "DEBUG "
  | .INFO => bytes "INFO  "
  | .WARN => bytes "WARN  "
  | .ERROR => bytes "ERROR "
  | .FATAL => bytes "FATAL "

/-- The text that the macros format with `snprintf`, for a format that ends in `%s`: the argument
is read up to its first NUL, and the buffer holds 1023 bytes and a NUL. -/
def snprintf (format arg : Bytes) : Bytes := (format ++ arg.takeWhile fun c => c ≠ 0).take 1023

/-- `log`: the line that is printed. -/
def log (m_logLevel : LogLevel) (time msg : Bytes) : Bytes :=
  bytes "[" ++ LogLevelName m_logLevel ++ bytes "] " ++ time ++ bytes " : " ++ msg ++ bytes "\n"

end Logger

end RegistrationCenter
