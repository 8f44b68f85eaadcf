/-
Why an operation can fail. A cause has three faces: the number the system
call boundary returns, the symbol naming that number, and a sentence for a
log line. `ofSymbol?` reads a symbol back (`ofSymbol?_symbol`), so the
symbols tell all causes apart.
-/

namespace VirtualFs

/-- The cause of a failed operation. -/
inductive Error where
  /-- No such file or directory. -/
  | notFound
  /-- A path component, or the node behind a handle, is not a directory. -/
  | notADirectory
  /-- A directory stands where a file is required. -/
  | isADirectory
  /-- A handle that is unbound or of the wrong kind. -/
  | badHandle
  /-- The node has no operation for this request. -/
  | notImplemented
  /-- The operation exists and refuses this request. -/
  | notSupported
  /-- Too many symbolic links, nested or in a row. -/
  | loop
  /-- A name, a link target or a path is too long. -/
  | nameTooLong
  /-- A rename across volumes. -/
  | crossDevice
  | invalidArgument
  /-- A failed transfer, or a short one where the exact size is required. -/
  | ioError
  | alreadyExists
  | directoryNotEmpty
  | busy
  | readOnly
  /-- The handle table is full. -/
  | tooManyOpenFiles
  /-- No driver of that name. -/
  | noDevice
  | accessDenied
  /-- The result does not fit the caller's buffer. -/
  | outOfRange
  | fileTooLarge
  deriving DecidableEq, Repr, Inhabited

namespace Error

/-- Every cause. -/
def all : List Error :=
  [notFound, notADirectory, isADirectory, badHandle, notImplemented, notSupported, loop,
    nameTooLong, crossDevice, invalidArgument, ioError, alreadyExists, directoryNotEmpty, busy,
    readOnly, tooManyOpenFiles, noDevice, accessDenied, outOfRange, fileTooLarge]

/-- The positive number of the cause at the system call boundary. -/
def errno : Error → UInt32
  | notFound => 2
  | notADirectory => 20
  | isADirectory => 21
  | badHandle => 9
  | notImplemented => 38
  | notSupported => 95
  | loop => 40
  | nameTooLong => 36
  | crossDevice => 18
  | invalidArgument => 22
  | ioError => 5
  | alreadyExists => 17
  | directoryNotEmpty => 39
  | busy => 16
  | readOnly => 30
  | tooManyOpenFiles => 24
  | noDevice => 19
  | accessDenied => 13
  | outOfRange => 34
  | fileTooLarge => 27

/-- The symbol that stands for `errno`. -/
def symbol : Error → String
  | notFound => "ENOENT"
  | notADirectory => "ENOTDIR"
  | isADirectory => "EISDIR"
  | badHandle => "EBADF"
  | notImplemented => "ENOSYS"
  | notSupported => "EOPNOTSUPP"
  | loop => "ELOOP"
  | nameTooLong => "ENAMETOOLONG"
  | crossDevice => "EXDEV"
  | invalidArgument => "EINVAL"
  | ioError => "EIO"
  | alreadyExists => "EEXIST"
  | directoryNotEmpty => "ENOTEMPTY"
  | busy => "EBUSY"
  | readOnly => "EROFS"
  | tooManyOpenFiles => "EMFILE"
  | noDevice => "ENODEV"
  | accessDenied => "EACCES"
  | outOfRange => "ERANGE"
  | fileTooLarge => "EFBIG"

/-- The cause in words. -/
def sentence : Error → String
  | notFound => "No such file or directory"
  | notADirectory => "Not a directory"
  | isADirectory => "Is a directory"
  | badHandle => "Bad file descriptor"
  | notImplemented => "Function not implemented"
  | notSupported => "Operation not supported"
  | loop => "Too many levels of symbolic links"
  | nameTooLong => "File name too long"
  | crossDevice => "Invalid cross-device link"
  | invalidArgument => "Invalid argument"
  | ioError => "I/O error"
  | alreadyExists => "File exists"
  | directoryNotEmpty => "Directory not empty"
  | busy => "Device or resource busy"
  | readOnly => "Read-only file system"
  | tooManyOpenFiles => "Too many open files"
  | noDevice => "No such device"
  | accessDenied => "Permission denied"
  | outOfRange => "Numerical result out of range"
  | fileTooLarge => "File too large"

/-- The text of a log line: the sentence, then the symbol. -/
def message (e : Error) : String :=
  e.sentence ++ " (" ++ e.symbol ++ ")"

/-- The cause a symbol stands for. -/
def ofSymbol? (s : String) : Option Error :=
  all.find? fun e => e.symbol == s

theorem mem_all (e : Error) : e ∈ all := by cases e <;> decide

theorem ofSymbol?_symbol (e : Error) : ofSymbol? e.symbol = some e := by cases e <;> decide

/-- A failing call returns a positive number. -/
theorem errno_pos (e : Error) : 0 < e.errno := by cases e <;> decide

end Error

end VirtualFs
