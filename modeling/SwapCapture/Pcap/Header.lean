/-
The two headers of a capture file in the classic pcap format.

    file    24 bytes of file header, then records
    record  16 bytes of record header, then the bytes of the frame

All words have their low byte first.  Frames are never cut short, so both lengths of a record
are the length of its frame.

* `Pcap.fileHeader` — the header in front of all records;
* `Pcap.recordHeader` — the header in front of one frame.
-/
import SwapCapture.Bytes.Words
import SwapCapture.Pcap.Time

namespace SwapCapture.Pcap

open Bytes

/-- The word that marks a capture file with microseconds; `inspect` refuses all others. -/
def magic : UInt32 := 0xA1B2C3D4

def versionMajor : UInt16 := 2

def versionMinor : UInt16 := 4

/-- The most bytes of a frame that `fileHeader` promises. -/
def snapLength : UInt32 := 65535

def linkEthernet : UInt32 := 1

def fileHeaderSize : Nat := 24

def recordHeaderSize : Nat := 16

/-- The header of every file: the time zone and the accuracy of the clock are zero. -/
def fileHeader : Bytes :=
  le32 magic ++ le16 versionMajor ++ le16 versionMinor ++ le32 0 ++ le32 0
    ++ le32 snapLength ++ le32 linkEthernet

/-- The header of a frame of `length` bytes at `time`. -/
def recordHeader (time : Timestamp) (length : UInt32) : Bytes :=
  le32 time.seconds ++ le32 time.micros ++ le32 length ++ le32 length

@[simp] theorem length_fileHeader : fileHeader.length = fileHeaderSize := rfl

@[simp] theorem length_recordHeader (time : Timestamp) (length : UInt32) :
    (recordHeader time length).length = recordHeaderSize := rfl

end SwapCapture.Pcap
