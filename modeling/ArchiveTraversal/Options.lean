/-!
What a reader and an unpack are set up with. A size of zero asks for the default, so a reader in
use never has one. Sizes have no upper bound: a buffer of any size is there for a session, while
in practice there has to be memory for it.
-/

namespace ArchiveTraversal

def defaultBlockSize : Nat := 10240
def defaultChunkSize : Nat := 10240

structure ReaderOptions where
  blockSize : Nat := defaultBlockSize
  chunkSize : Nat := defaultChunkSize
  deriving DecidableEq, Repr

namespace ReaderOptions

def normalized (options : ReaderOptions) : ReaderOptions where
  blockSize := if options.blockSize = 0 then defaultBlockSize else options.blockSize
  chunkSize := if options.chunkSize = 0 then defaultChunkSize else options.chunkSize

theorem chunkSize_normalized_pos (options : ReaderOptions) : 0 < options.normalized.chunkSize := by
  unfold normalized
  dsimp only
  split
  · decide
  · omega

def debug (options : ReaderOptions) : String :=
  "ReaderOptions \x7b block_size: " ++ toString options.blockSize ++
    ", chunk_size: " ++ toString options.chunkSize ++ " \x7d"

end ReaderOptions

def defaultSizeLimit : Nat := 20 * 1024 * 1024 * 1024

structure UnpackOptions where
  sizeLimit : Option Nat := some defaultSizeLimit
  reader : ReaderOptions := {}
  deriving DecidableEq, Repr

end ArchiveTraversal
