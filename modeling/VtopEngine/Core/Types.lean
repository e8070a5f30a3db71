import Mathlib.Tactic.Common

/-! # Source positions

The markers that bind a position of a source to a batch (`types.rs`).
-/

namespace VtopEngine.Core

inductive SourceType
  | Kafka | File | SyslogSpool
  deriving DecidableEq, Repr

def SourceType.asStr : SourceType → String
  | .Kafka => "kafka"
  | .File => "file"
  | .SyslogSpool => "syslog_spool"

inductive TelemetryFormat
  | Cef | Leef | Json | Jsonl | Syslog | Raw
  deriving DecidableEq, Repr

def TelemetryFormat.asStr : TelemetryFormat → String
  | .Cef => "cef"
  | .Leef => "leef"
  | .Json => "json"
  | .Jsonl => "jsonl"
  | .Syslog => "syslog"
  | .Raw => "raw"

inductive CompressionType
  | Gzip | Zstd | None
  deriving DecidableEq, Repr

def CompressionType.asStr : CompressionType → String
  | .Gzip => "gzip"
  | .Zstd => "zstd"
  | .None => "none"

/-- A stretch of a source.  Kafka offsets are signed, and `endOffset` is the last one read; bytes run up to `endByte`. -/
inductive ProgressMarker
  | Kafka (topic : String) (partition : Int) (startOffset endOffset : Int) (consumerGroup : String)
  | File (path : String) (inode : Option Nat) (startByte endByte fileSize : Nat) (mtime : String)
  | SyslogSpool (spoolId path : String) (inode : Option Nat) (startByte endByte : Nat)
      (receivedTimeStart receivedTimeEnd : Option String)
  deriving DecidableEq, Repr

def ProgressMarker.sourceType : ProgressMarker → SourceType
  | .Kafka .. => .Kafka
  | .File .. => .File
  | .SyslogSpool .. => .SyslogSpool

end VtopEngine.Core
