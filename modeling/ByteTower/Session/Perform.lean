import ByteTower.Session.Command

namespace ByteTower

def StoreCommand.run {σ : Type} [Storage σ] : StoreCommand → StoreM σ Reply
  | length => return .number (← Storage.length)
  | isEmpty => return .flag (← Storage.isEmpty)
  | cursor => return .number (← Storage.cursor)
  | isClosed => return .flag (Storage.isClosed (← get))
  | flush => do
    Storage.flush
    return .done
  | close => do
    Storage.close
    return .done
  | resize size => do
    Storage.resize size
    return .done
  | seek pos => do
    Storage.seek pos
    return .done
  | read n => do
    let result ← Storage.read n
    return .read result result.data
  | readAt pos n => do
    let result ← Storage.readAt pos n
    return .read result result.data
  | readWithin buffer start count => do
    let (result, buffer) ← Storage.readWithin buffer start count
    return .read result buffer
  | readExactly n => return .data (← Storage.readExactly n)
  | write data => do
    Storage.write data
    return .done
  | writeAt pos data => do
    Storage.writeAt pos data
    return .done
  | writeWithin buffer start count => do
    Storage.writeWithin buffer start count
    return .done
  | copyTo sink =>
    .ofRun fun s =>
      let (total, s, sink) := Storage.copyTo.run (s, sink)
      (.ok (.copiedTo total sink), s)
  | copyFrom source =>
    .ofRun fun s =>
      let (total, s, source) := Storage.copyFrom.run (s, source)
      (.ok (.copiedFrom total source), s)

def BlockCommand.run {σ : Type} [Storage σ] :
    BlockCommand → StoreM (BlockView String σ × Cast) Reply
  | count => return .number (← StoreM.onFirst BlockView.blockCount)
  | read block offset n =>
    return .data (← StoreM.onFirst (BlockView.readBlock block offset n))
  | readWithin block offset buffer start n =>
    return .data
      (← StoreM.onFirst (BlockView.readBlockWithin block offset buffer start n))
  | write block offset data => do
    StoreM.onFirst (BlockView.writeBlock block offset data)
    return .done
  | writeWithin block offset buffer start n => do
    StoreM.onFirst (BlockView.writeBlockWithin block offset buffer start n)
    return .done
  | insert index n => do
    BlockView.insertBlocks index n
    return .done
  | delete index n => do
    BlockView.deleteBlocks index n
    return .done
  | addListener name script => do
    let (v, cast) ← get
    let (id, v) := v.addListener name
    set (v, cast.enlist name script)
    return .number id
  | eraseListener id => do
    let (v, cast) ← get
    set (v.eraseListener id, cast)
    return .flag (v.register.contains id)
  | tellEach change => do
    let (v, _) ← get
    return .outcomes (← StoreM.onSecond (v.register.notifyEach change))

end ByteTower
